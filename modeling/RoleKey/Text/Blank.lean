import RoleKey.Text.CodePoint

/-!
White space around a text.

A character is blank if it has the Unicode property `White_Space`. `trim` drops blanks at both ends
and nothing between.
-/

set_option autoImplicit false
set_option relaxedAutoImplicit false

namespace RoleKey.Text

/-- The code points of white space. -/
def blankRanges : CodePoints :=
  [(0x09, 0x0D), (0x20, 0x20), (0x85, 0x85), (0xA0, 0xA0), (0x1680, 0x1680), (0x2000, 0x200A),
    (0x2028, 0x2029), (0x202F, 0x202F), (0x205F, 0x205F), (0x3000, 0x3000)]

/-- Whether a character is white space. -/
def isBlank (c : Char) : Bool := blankRanges.contains c

/-- The characters without the blanks they begin and end with. -/
def trimChars (s : List Char) : List Char :=
  ((s.dropWhile isBlank).reverse.dropWhile isBlank).reverse

/-- The text without the blanks it begins and ends with. -/
def trim (s : String) : String := String.ofList (trimChars s.toList)

end RoleKey.Text
