/-!
The pieces of a text between separators.

There is one piece more than there are separators, and no separator is in a piece.
-/

set_option autoImplicit false
set_option relaxedAutoImplicit false

namespace RoleKey.Text

/-- Puts a character in front of the first piece. -/
def consFirst (c : Char) : List (List Char) → List (List Char)
  | [] => [[c]]
  | piece :: pieces => (c :: piece) :: pieces

/-- The pieces between separators. -/
def split (separator : Char) : List Char → List (List Char)
  | [] => [[]]
  | c :: rest =>
    if c = separator then [] :: split separator rest else consFirst c (split separator rest)

end RoleKey.Text
