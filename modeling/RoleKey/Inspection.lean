import RoleKey.SeedText
import RoleKey.Text.Blank
import RoleKey.Text.Record

/-!
What a text claims to be, and whether it is that.

The kind of an inspection is read off the role that the text claims; the text is then read as that
kind, with the length that the kind has. Any text gets an inspection.
-/

set_option autoImplicit false
set_option relaxedAutoImplicit false

namespace RoleKey

/-- The kinds of text that an inspection tells apart. -/
inductive KeyKind where
  | seed
  | privateKey
  | publicKey
  | unknown
deriving DecidableEq

/-- The name of a kind. -/
def KeyKind.name : KeyKind → String
  | seed => "seed"
  | privateKey => "private"
  | publicKey => "public"
  | unknown => "unknown"

/-- What an inspection finds wrong. -/
inductive InspectionFault where
  /-- The text claims no role. -/
  | unrecognized
  /-- The text is not what it claims to be. -/
  | refused (error : KeyError)
deriving DecidableEq

/-- The wording of a fault. -/
def InspectionFault.message : InspectionFault → String
  | unrecognized => "unrecognized prefix"
  | refused error => error.message

/-- The outcome of an inspection. A text is valid if it has no fault. -/
structure Inspection where
  kind : KeyKind
  /-- The role of a public key, or the one that a valid seed embeds. -/
  role : Option Role
  fault : Option InspectionFault
deriving DecidableEq

namespace Inspection

/-- Whether the text is what it claims to be. -/
def valid (i : Inspection) : Bool := i.fault.isNone

/-- The payload under a role, if it has the length wanted. -/
def payloadOf (role : Role) (length : Nat) (text : String) : Except KeyError Bytes := do
  let payload ← KeyText.decode role.byte text
  if payload.length = length then return payload
  else throw (.invalidKeyLength length payload.length)

/-- The fault of an outcome. -/
def faultOf {α : Type} : Except KeyError α → Option InspectionFault
  | .ok _ => none
  | .error e => some (.refused e)

/-- The inspection of a text without blanks around it. -/
def ofTrimmed (text : String) : Inspection :=
  match KeyText.roleOf text with
  | some .seed =>
    let outcome := SeedText.decode text
    ⟨.seed, outcome.toOption.map Prod.fst, faultOf outcome⟩
  | some .privateKey =>
    ⟨.privateKey, none, faultOf (payloadOf .privateKey KeyText.privateLength text)⟩
  | some role => ⟨.publicKey, some role, faultOf (payloadOf role KeyText.publicLength text)⟩
  | none => ⟨.unknown, none, some .unrecognized⟩

/-- The inspection of a text, whatever blanks stand around it. -/
def ofText (text : String) : Inspection := ofTrimmed (Text.trim text)

/-- One line, for a person. -/
def line (i : Inspection) : String :=
  let head := "kind=" ++ i.kind.name ++ " role=" ++ (i.role.map Role.name).getD "-" ++
    " valid=" ++ (Text.Scalar.bool i.valid).json
  match i.fault with
  | some fault => head ++ " error=\"" ++ fault.message ++ "\""
  | none => head

/-- The members of an inspection; the error is one of them only if there is one. -/
def record (i : Inspection) : Text.Record :=
  [("kind", .text i.kind.name),
    ("role", ((i.role.map fun r => Text.Scalar.text r.name)).getD .null),
    ("valid", .bool i.valid)] ++
  (i.fault.map fun fault => ("error", Text.Scalar.text fault.message)).toList

/-- The text that is printed, as a record or as a line. -/
def print (i : Inspection) (json : Bool) : String := if json then i.record.pretty else i.line

end Inspection

end RoleKey
