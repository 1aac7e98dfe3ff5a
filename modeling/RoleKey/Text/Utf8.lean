import RoleKey.Octets

/-!
Texts as bytes.

`utf8` gives the bytes of a text and `ofUtf8?` the text of bytes, if they are one.
-/

set_option autoImplicit false
set_option relaxedAutoImplicit false

namespace RoleKey.Text

/-- The bytes of a text. -/
def utf8 (s : String) : Bytes := s.toUTF8.data.toList

/-- The text of these bytes, if they are well formed. -/
def ofUtf8? (data : Bytes) : Option String := String.fromUTF8? ⟨data.toArray⟩

end RoleKey.Text
