import RoleKey.Text.Blank

/-!
The switches of a pattern.

Switches are letters that change how a pattern is read from where they stand. Three of them bear on
whether a text is a pattern; with `x`, white space and comments are passed over.
-/

set_option autoImplicit false
set_option relaxedAutoImplicit false

namespace RoleKey.Diagnostics.Pattern

/-- The switches that bear on what is a pattern. -/
structure Switches where
  /-- `u`: the pattern is about characters, not bytes. -/
  unicode : Bool
  /-- `i`: letters stand for either case. -/
  caseless : Bool
  /-- `x`: white space and comments are passed over. -/
  spaced : Bool
deriving DecidableEq

namespace Switches

/-- The switches that hold at first. -/
def initial : Switches := ⟨true, false, false⟩

/-- The letters of all switches. -/
def letters : List Char := ['i', 'm', 's', 'U', 'u', 'R', 'x']

/-- Turns a switch on or off. -/
def turn (on : Bool) (sw : Switches) (letter : Char) : Switches :=
  if letter = 'u' then { sw with unicode := on }
  else if letter = 'i' then { sw with caseless := on }
  else if letter = 'x' then { sw with spaced := on }
  else sw

/-- Turns on the switches before a minus sign and turns off those behind it. No letter stands twice,
and one stands behind the sign. -/
def turnAll? (sw : Switches) (text : List Char) : Option Switches :=
  let on := text.takeWhile fun c => c != '-'
  let signed := text.dropWhile fun c => c != '-'
  let off := signed.drop 1
  if (on ++ off).all letters.contains && decide ((on ++ off).Nodup)
      && (signed.isEmpty || !off.isEmpty) then
    some (off.foldl (turn false) (on.foldl (turn true) sw))
  else none

/-- Whether the pattern can have characters that a table would have to tell the other case of. There
is no such table. -/
def foldsCharacters (sw : Switches) : Bool := sw.unicode && sw.caseless

/-! ### White space and comments -/

/-- The text behind white space and comments, which go from `#` to the end of their line.
`inComment` tells that the text begins within one. -/
def skipFrom : (inComment : Bool) → List Char → List Char
  | _, [] => []
  | true, c :: rest => skipFrom (c != '\n') rest
  | false, c :: rest =>
    if Text.isBlank c then skipFrom false rest
    else if c = '#' then skipFrom true rest
    else c :: rest

/-- Passes over white space and comments if the switches say so. -/
def skip (sw : Switches) (s : List Char) : List Char :=
  if sw.spaced then skipFrom false s else s

/-- The first character that is neither blank nor the first `#`. -/
def peekFrom : (inComment : Bool) → List Char → Option Char
  | _, [] => none
  | inComment, c :: rest =>
    if Text.isBlank c then peekFrom inComment rest
    else if c = '#' ∧ !inComment then peekFrom true rest
    else some c

/-- The character that is taken for the next one when a minus sign may make a range: with `x`, one
behind white space, be it within a comment. -/
def peek (sw : Switches) (s : List Char) : Option Char :=
  if sw.spaced then (peekFrom false s).or s.head? else s.head?

end Switches

end RoleKey.Diagnostics.Pattern
