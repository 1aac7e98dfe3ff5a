import RoleKey.Diagnostics.Event
import RoleKey.Role

/-!
The commands and arguments that a command line can name.

This is what the program declares of its command line; how a line is read by it is the work of a
library (`Parser`). A level is where an argument stands: before the name of a command, or behind it.
`Level.long?` and `Level.short?` say which options a level has, `Level.positionals` which texts it
takes by their place. The two options on diagnostics are known at every level, and so are those that
ask for help and for the version. `Verb.required` names the arguments that a command cannot do
without, `Arg.default?` what an argument has if nothing says anything of it.
-/

set_option autoImplicit false
set_option relaxedAutoImplicit false

namespace RoleKey.CommandLine

/-- The commands. -/
inductive Verb where
  | generate
  | publicKey
  | sign
  | verify
  | inspect
  | version
deriving DecidableEq

namespace Verb

/-- The name of a command on the command line. -/
def name : Verb → String
  | generate => "gen"
  | publicKey => "pubkey"
  | sign => "sign"
  | verify => "verify"
  | inspect => "inspect"
  | version => "version"

/-- Every command. -/
def all : List Verb := [generate, publicKey, sign, verify, inspect, version]

/-- The command of this name. -/
def ofName? (s : String) : Option Verb := all.find? fun v => v.name == s

end Verb

/-- The word that asks for help where a command is expected. -/
def helpWord : String := "help"

/-- Whether a word is a command, or asks for help. -/
def isCommandWord (s : String) : Bool := (Verb.ofName? s).isSome || s == helpWord

/-- The arguments that have a value, or are given or not. -/
inductive Arg where
  | logLevel
  | logFormat
  | role
  | json
  | inkey
  | data
  | key
  | signature
  | value
deriving DecidableEq

/-- Whether an argument can have this text as its value. A path is not empty; a role is one that
signs. -/
def Arg.accepts (a : Arg) (text : String) : Bool :=
  match a with
  | logFormat => (Diagnostics.Format.ofName? text).isSome
  | role => (Role.ofName? text).any Role.isSigning
  | inkey | data => !text.isEmpty
  | _ => true

/-- The text that an argument has if neither the command line nor the environment gives it one. -/
def Arg.default? : Arg → Option String
  | logLevel => some "warn"
  | logFormat => some Diagnostics.Format.pretty.name
  | _ => none

/-- The long name of the option of an argument on diagnostics. -/
def Arg.diagnosticName? : Arg → Option String
  | logLevel => some "log-level"
  | logFormat => some "log-format"
  | _ => none

/-- Whether an argument is on diagnostics. Such an argument may be given at every level. -/
def Arg.isDiagnostic (a : Arg) : Bool := a.diagnosticName?.isSome

/-- The arguments that a command cannot do without. -/
def Verb.required : Verb → List Arg
  | generate => [.role]
  | publicKey => [.inkey]
  | sign => [.inkey, .data]
  | verify => [.key, .signature, .data]
  | inspect => [.value]
  | version => []

/-- What an option does. -/
inductive Switch where
  /-- It is given or not. -/
  | flag (arg : Arg)
  /-- It has a value, attached or in the next word. -/
  | valued (arg : Arg)
  /-- It asks for help. -/
  | help
  /-- It asks for the version. -/
  | version
deriving DecidableEq

/-- Where an argument stands: before any command, or behind one. -/
inductive Level where
  | top
  | below (verb : Verb)
deriving DecidableEq

namespace Level

/-- The options that only this level has, by their long names. -/
def ownOptions : Level → List (String × Switch)
  | below .generate => [("json", .flag .json)]
  | below .publicKey => [("inkey", .valued .inkey)]
  | below .sign => [("inkey", .valued .inkey)]
  | below .verify => [("key", .valued .key), ("sig", .valued .signature)]
  | below .inspect => [("json", .flag .json)]
  | _ => []

/-- The options that every level has, by their long names. -/
def commonOptions : List (String × Switch) :=
  [("log-level", .valued .logLevel), ("log-format", .valued .logFormat), ("help", .help),
    ("version", .version)]

/-- The option of a long name. -/
def long? (level : Level) (name : List Char) : Option Switch :=
  ((level.ownOptions ++ commonOptions).find? fun o => o.1.toList == name).map Prod.snd

/-- The option of a letter. -/
def short? (level : Level) (letter : Char) : Option Switch :=
  match letter, level with
  | 'h', _ => some .help
  | 'V', _ => some .version
  | 'i', below .publicKey => some (.valued .inkey)
  | 'i', below .sign => some (.valued .inkey)
  | 'k', below .verify => some (.valued .key)
  | 's', below .verify => some (.valued .signature)
  | _, _ => none

/-- The arguments that are given by their place, in order. -/
def positionals : Level → List Arg
  | below .generate => [.role]
  | below .sign => [.data]
  | below .verify => [.data]
  | below .inspect => [.value]
  | _ => []

/-- The arguments that take their value from the environment if they are not given. -/
def fromEnvironment : Level → List Arg
  | below .publicKey => [.logLevel, .logFormat, .inkey]
  | below .sign => [.logLevel, .logFormat, .inkey]
  | _ => [.logLevel, .logFormat]

end Level

end RoleKey.CommandLine
