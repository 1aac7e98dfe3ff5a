import RoleKey.Inspection
import RoleKey.KeyPair
import RoleKey.Run

/-!
The commands: generate a pair, show the public key of a seed, sign a file, verify a signature,
describe a text.

A command comes to the text that it prints. The seed that signs is in a file; a key and a signature
to verify are each in a file or given as they are. Blanks around what a file holds are dropped.
-/

set_option autoImplicit false
set_option relaxedAutoImplicit false

namespace RoleKey.Command

open Diagnostics (Event)

/-! ### Events -/

/-- The events of key pairs are at the lowest level but one, and show roles and refusals only. -/
def pairEvent (message : String) (fields : Text.Record) : Event :=
  ⟨.debug, "nkeys::keypair", message, fields⟩

/-- The field that shows a role. -/
def roleField (role : Role) : String × Text.Scalar := ("role", .text role.name)

/-- The field that shows a refusal. -/
def errorField (e : KeyError) : String × Text.Scalar := ("error", .text e.message)

/-- The events of reading a seed. -/
def seedEvents (S : Scheme) (text : String) : List Event :=
  match SeedText.decode text with
  | .error e => [pairEvent "seed rejected" [errorField e]]
  | .ok (role, _) =>
    if role.isSigning then
      match KeyPair.ofSeed S text with
      | .ok _ => [pairEvent "loaded key pair from seed" [roleField role]]
      | .error _ => []
    else [pairEvent "seed does not hold a signing key" [roleField role]]

/-- The events of reading a public key of a role. -/
def publicKeyEvents (role : Role) (text : String) : List Event :=
  match KeyText.decode role.byte text with
  | .error e => [pairEvent "public key rejected" [roleField role, errorField e]]
  | .ok _ => []

/-- The events of reading a public key of the role that it claims. -/
def anyPublicKeyEvents (text : String) : List Event :=
  match KeyText.roleOf text with
  | some role => if role.isSigning then publicKeyEvents role text else []
  | none => []

/-- The event of a new pair. -/
def pairGenerated (role : Role) : Event := pairEvent "generated key pair" [roleField role]

/-- The event of a command that has generated a pair. -/
def commandGenerated (role : Role) (publicKey : String) : Event :=
  ⟨.info, "nk::commands", "generated key pair", [roleField role, ("public_key", .text publicKey)]⟩

/-- The event of a command that has signed a file. -/
def fileSigned (size : Nat) (role : Role) : Event :=
  ⟨.debug, "nk::commands", "signed file", [("bytes", .number size), roleField role]⟩

/-! ### What commands are given -/

/-- The text of a seed file, without blanks around it. -/
def seedIn (files : Files) (path : String) : Except Failure String := do
  let text := Text.trim (← Failure.ofFile (.readSeedFile path) (files.readText path))
  if text.isEmpty then throw ⟨none, .emptySeedFile path⟩
  return text

/-- The pair of a seed file. -/
def loadSeed (S : Scheme) (files : Files) (path : String) : Run KeyPair := do
  let text ← Run.of (seedIn files path)
  ⟨Failure.ofKey (some (.useSeedIn path)) (KeyPair.ofSeed S text), seedEvents S text⟩

/-- What a value stands for, without blanks around it: the text of the regular file that it names,
or else itself. -/
def fileOrLiteral (files : Files) (value : String) : Except Failure String :=
  if (files value).isRegular then
    (Failure.ofFile (.readFile value) (files.readText value)).map Text.trim
  else .ok (Text.trim value)

/-- The pair of a key's text: a seed if it claims to be one, a public key otherwise. -/
def parseKey (S : Scheme) (text : String) : Run KeyPair :=
  if KeyText.roleOf text = some .seed then
    ⟨Failure.ofKey (some .parseKey) (KeyPair.ofSeed S text), seedEvents S text⟩
  else
    ⟨Failure.ofKey (some .parseKey) (KeyPair.ofAnyPublicKey text), anyPublicKeyEvents text⟩

/-! ### Commands -/

/-- Shows the public key of a seed file. -/
def publicKey (S : Scheme) (files : Files) (inkey : String) : Run String := do
  let pair ← loadSeed S files inkey
  Run.of (Failure.ofKey none (pair.publicKey S))

/-- Signs a file with the seed of a seed file. -/
def sign (S : Scheme) (files : Files) (inkey data : String) : Run String := do
  let pair ← loadSeed S files inkey
  let content ← Run.of (Failure.ofFile (.readFile data) (files.read data))
  let signature ← Run.of (Failure.ofKey none (pair.sign S content))
  Run.emit (fileSigned content.length pair.role)
  return Text.Hexadecimal.encode signature

/-- The bytes of a signature's text. -/
def parseSignature (text : String) : Except Failure Bytes :=
  (Text.Hexadecimal.decode text).mapError fun fault => ⟨some .parseSignature, .hexadecimal fault⟩

/-- Verifies a signature over a file. -/
def verify (S : Scheme) (files : Files) (key signature data : String) : Run String := do
  let keyText ← Run.of (fileOrLiteral files key)
  let pair ← parseKey S keyText
  let signatureText ← Run.of (fileOrLiteral files signature)
  let signatureBytes ← Run.of (parseSignature signatureText)
  let content ← Run.of (Failure.ofFile (.readFile data) (files.read data))
  Run.of (Failure.ofKey none (pair.verify S content signatureBytes))
  return "Verified OK"

/-- Describes a text. -/
def inspect (value : String) (json : Bool) : Run String :=
  pure ((Inspection.ofText value).print json)

/-- What is printed of a new pair: two lines, or a record. -/
def printGenerated (role : Role) (seed publicKey : String) (json : Bool) : String :=
  if json then
    Text.Record.pretty
      [roleField role, ("seed", .text seed), ("public_key", .text publicKey)]
  else seed ++ "\n" ++ publicKey

/-- Shows a new pair. -/
def showGenerated (S : Scheme) (role : Role) (json : Bool) (pair : KeyPair) : Run String := do
  Run.emit (pairGenerated role)
  let seed ← Run.of (Failure.ofKey none (pair.seed S))
  let publicKey ← Run.of (Failure.ofKey none (pair.publicKey S))
  Run.emit (commandGenerated role publicKey)
  return printGenerated role seed publicKey json

/-- Generates a pair and shows it; also gives what the source has left. -/
def generate (S : Scheme) (role : Role) (json : Bool) (source : RandomSource) :
    Run String × RandomSource :=
  let (outcome, rest) := KeyPair.generate role source
  ((Run.of (Failure.ofKey (some .generate) outcome)).andThen (showGenerated S role json), rest)

end RoleKey.Command
