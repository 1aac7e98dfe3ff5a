import RoleKey.Diagnostics.Pattern.Escape
import RoleKey.Diagnostics.Pattern.Row

/-!
Classes of characters in brackets.

A class holds characters, ranges, classes with names and classes in brackets of their own, and may
be divided by the operators `&&`, `--` and `~~`, which join from the left. Where characters of
either case are asked for, only a class without any element needs no table.
-/

set_option autoImplicit false
set_option relaxedAutoImplicit false

namespace RoleKey.Diagnostics.Pattern

/-! ### Elements -/

/-- The names of classes within brackets. -/
def classNames : List String :=
  ["alnum", "alpha", "ascii", "blank", "cntrl", "digit", "graph", "lower", "print", "punct",
    "space", "upper", "word", "xdigit"]

/-- A class with a name, whose opening bracket has been read: whether it is negated, and what
follows. -/
def namedClass? : List Char → Option (Bool × List Char)
  | ':' :: rest =>
    let negated := rest.head? == some '^'
    let rest := if negated then rest.drop 1 else rest
    let name := rest.takeWhile fun c => c != ':'
    match rest.drop name.length with
    | ':' :: ']' :: rest =>
      if classNames.contains (String.ofList name) then some (negated, rest) else none
    | _ => none
  | _ => none

/-- One element: the code of a character, or none for a class by itself. -/
def element? (sw : Switches) (s : List Char) : Option (Option Nat × List Char) := do
  let (atom, rest) ←
    match s with
    | [] => none
    | '\\' :: rest => escape? sw rest
    | c :: rest => some (.literal c.toNat false, rest)
  match atom with
  | .literal code _ =>
    if sw.unicode || decide (code < Text.asciiLimit) then return (some code, rest) else none
  | .family negated => if sw.unicode || negated then none else return (none, rest)
  | _ => none

/-- One element or range. A minus sign before a closing bracket or another one makes no range. -/
def range? (sw : Switches) (s : List Char) : Option (List Char) := do
  let (first, rest) ← element? sw s
  match sw.skip rest with
  | '-' :: behind =>
    if sw.peek behind = some ']' ∨ sw.peek behind = some '-' then return '-' :: behind
    else
      let (last, rest) ← element? sw (sw.skip behind)
      match first, last with
      | some a, some b => if a ≤ b then return rest else none
      | _, _ => none
  | rest => return rest

/-! ### Brackets -/

/-- What has been read of the class in a pair of brackets. -/
structure Bracket where
  /-- The depth of what stands before the last operator. -/
  operand : Option Nat
  /-- The elements behind it. -/
  row : Row

namespace Bracket

/-- The depth of what is in the brackets. -/
def depth (b : Bracket) : Nat :=
  match b.operand with
  | none => b.row.depth
  | some before => max before b.row.depth + 1

/-- Adds an element of this depth. -/
def add (b : Bracket) (depth : Nat) : Bracket := { b with row := b.row.add depth }

/-- Reads minus signs, and counts them. Each takes a character, so the length of the text is fuel
enough. -/
def minusSigns (sw : Switches) : Nat → List Char → Nat × List Char
  | fuel + 1, '-' :: rest =>
    let (count, rest) := minusSigns sw fuel (sw.skip rest)
    (count + 1, rest)
  | _, s => (0, s)

/-- Reads what may stand only behind an opening bracket: a negation, minus signs, and, if there are
none, a closing bracket that stands for itself. The complement of a class of bytes holds bytes that
are no characters. -/
def opening? (sw : Switches) (s : List Char) : Option (Bracket × List Char) :=
  let s := sw.skip s
  let negated := s.head? == some '^'
  let s := if negated then sw.skip (s.drop 1) else s
  let (count, s) := minusSigns sw s.length s
  let closing := count == 0 && s.head? == some ']'
  let s := if closing then sw.skip (s.drop 1) else s
  let row : Row := ⟨if closing then 1 else count, 0, 0⟩
  if (negated && !sw.unicode) || (sw.foldsCharacters && row.count != 0) then none
  else some (⟨none, row⟩, s)

/-- Reads to the end of a bracket within others, and tells the depth of the outermost one. Each
round takes a character, so the length of the text is fuel enough. -/
def close? (sw : Switches) : Nat → Bracket → List Bracket → List Char → Option (Nat × List Char)
  | 0, _, _, _ => none
  | fuel + 1, b, outer, s =>
    match sw.skip s with
    | [] => none
    | '[' :: rest =>
      match namedClass? rest with
      | some (negated, rest) =>
        if sw.foldsCharacters || (negated && !sw.unicode) then none
        else close? sw fuel (b.add 0) outer rest
      | none => do
        let (inner, rest) ← opening? sw rest
        close? sw fuel inner (b :: outer) rest
    | ']' :: rest =>
      match outer with
      | [] => some (b.depth + 1, rest)
      | parent :: outer => close? sw fuel (parent.add (b.depth + 1)) outer rest
    | '&' :: '&' :: rest => close? sw fuel ⟨some b.depth, .empty⟩ outer rest
    | '-' :: '-' :: rest => close? sw fuel ⟨some b.depth, .empty⟩ outer rest
    | '~' :: '~' :: rest => close? sw fuel ⟨some b.depth, .empty⟩ outer rest
    | s => do
      let rest ← range? sw s
      if sw.foldsCharacters then none else close? sw fuel (b.add 0) outer rest

end Bracket

/-- The depth of a class whose opening bracket has been read, and what follows. -/
def class? (sw : Switches) (s : List Char) : Option (Nat × List Char) := do
  let (b, rest) ← Bracket.opening? sw s
  b.close? sw s.length [] rest

end RoleKey.Diagnostics.Pattern
