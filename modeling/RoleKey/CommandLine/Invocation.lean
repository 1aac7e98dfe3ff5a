import RoleKey.CommandLine.Parser

/-!
What a command line asks for.

A parser comes to a command and the texts of its arguments. An invocation is made of them: the
request, with a role in place of its name, and how diagnostics are let through and written.
-/

set_option autoImplicit false
set_option relaxedAutoImplicit false

namespace RoleKey.CommandLine

/-- A command with its arguments. -/
inductive Request where
  | generate (role : Role) (json : Bool)
  | publicKey (inkey : String)
  | sign (inkey data : String)
  | verify (key signature data : String)
  | inspect (value : String) (json : Bool)
  | version
deriving DecidableEq

namespace Request

/-- The command of a request. -/
def verb : Request → Verb
  | generate _ _ => .generate
  | publicKey _ => .publicKey
  | sign _ _ => .sign
  | verify _ _ _ => .verify
  | inspect _ _ => .inspect
  | version => .version

/-- The texts of a request that may be paths. -/
def paths : Request → List String
  | publicKey inkey => [inkey]
  | sign inkey data => [inkey, data]
  | verify key signature data => [key, signature, data]
  | _ => []

end Request

/-- What a command line asks for. -/
structure Invocation where
  request : Request
  logLevel : String
  logFormat : Diagnostics.Format
deriving DecidableEq

/-! ### From the texts of arguments -/

namespace Matches

/-- The text of an argument that has to have one. -/
def text (m : Matches) (a : Arg) : Except Stop String :=
  match m.value? a with
  | some text => .ok text
  | none => .error (.usage .missingArgument)

/-- The text of an argument as the name of something. -/
def named {α : Type} (m : Matches) (a : Arg) (ofName? : String → Option α) : Except Stop α := do
  match ofName? (← m.text a) with
  | some value => return value
  | none => throw (.usage .invalidValue)

section Given

variable {m : Matches} {a : Arg} {text : String}

theorem text_of_value? (h : m.value? a = some text) : m.text a = .ok text := by
  rw [Matches.text, h]

theorem named_of_value? {α : Type} {ofName? : String → Option α} {value : α}
    (h : m.value? a = some text) (hvalue : ofName? text = some value) :
    m.named a ofName? = .ok value := by
  simp [named, text_of_value? h, hvalue, bind, Except.bind, pure, Except.pure]

end Given

/-- The request of a command with these texts. -/
def request (m : Matches) : Except Stop Request :=
  match m.verb with
  | .generate => return .generate (← m.named .role Role.ofName?) (m.value? .json).isSome
  | .publicKey => return .publicKey (← m.text .inkey)
  | .sign => return .sign (← m.text .inkey) (← m.text .data)
  | .verify => return .verify (← m.text .key) (← m.text .signature) (← m.text .data)
  | .inspect => return .inspect (← m.text .value) (m.value? .json).isSome
  | .version => return .version

/-- The invocation of a command with these texts. -/
def invocation (m : Matches) : Except Stop Invocation :=
  return {
    request := ← m.request
    logLevel := ← m.text .logLevel
    logFormat := ← m.named .logFormat Diagnostics.Format.ofName? }

end Matches

/-- What the words of a command line ask for. -/
def Parser.read (P : Parser) (env : Environment) (words : List String) : Except Stop Invocation :=
  do (← P.parse env words).invocation

end RoleKey.CommandLine
