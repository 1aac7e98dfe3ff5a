import RoleKey.KeyText

/-!
Yes or no questions about a text: is it well formed, is it a public key, is it a public key of one
role.
-/

set_option autoImplicit false
set_option relaxedAutoImplicit false

namespace RoleKey.Recognition

/-- Whether the text is a well formed envelope that claims a role. -/
def isEncoding (text : String) : Bool :=
  (Envelope.read text).toOption.isSome && (KeyText.roleOf text).isSome

/-- Whether the text carries this role and as many bytes as a public key has. -/
def isPublicKeyOf (role : Role) (text : String) : Bool :=
  match KeyText.decode role.byte text with
  | .ok payload => payload.length == KeyText.publicLength
  | .error _ => false

/-- Whether the text is a public key of any role that has public keys. -/
def isPublicKey (text : String) : Bool :=
  match KeyText.roleOf text with
  | some role => role.isPublic && isPublicKeyOf role text
  | none => false

end RoleKey.Recognition
