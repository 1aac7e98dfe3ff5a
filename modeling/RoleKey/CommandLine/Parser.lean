import RoleKey.CommandLine.Argument

/-!
What the program asks of a reader of command lines.

The program declares its command line (`Argument`) and has a library read it, clap. It takes any
`Parser` and says nothing about how that works: `given` is what the words of a line give, and
`parse` what the line comes to when the environment and the defaults have been asked for the rest.
`Parser.Lawful` states what is assumed of the library, one law for each form of a word that its
documentation describes, and one each for what is not given. Nothing is assumed of the lines that it
refuses, of letters for options, of values in a word of their own, or of arguments that are given
twice.
-/

set_option autoImplicit false
set_option relaxedAutoImplicit false

namespace RoleKey.CommandLine

/-- Why a command line is refused. -/
inductive UsageFault where
  /-- An option lacks its value, or an argument cannot have the one given. -/
  | invalidValue
  /-- No argument has this name, or nothing is taken at this place. -/
  | unknownArgument
  /-- No command has this name. -/
  | invalidCommand
  /-- A required argument is missing. -/
  | missingArgument
  /-- An argument is given twice. -/
  | repeatedArgument
  /-- A value is attached to an option that has none. -/
  | unexpectedValue
  /-- Arguments, but no command. -/
  | missingCommand
  /-- Nothing at all. -/
  | nothingGiven
deriving DecidableEq

/-- Why reading a command line ends without a command to run. -/
inductive Stop where
  | usage (fault : UsageFault)
  | help
  | version (level : Level)
deriving DecidableEq

/-- The settings that are taken from the environment. -/
structure Environment where
  logLevel : Option String
  logFormat : Option String
  inkey : Option String
  /-- The filter that goes before the level. -/
  filter : Option String
deriving DecidableEq

/-- An environment in which nothing is set. -/
def Environment.empty : Environment := ⟨none, none, none, none⟩

/-- What the environment says of an argument. -/
def Environment.value? (env : Environment) : Arg → Option String
  | .logLevel => env.logLevel
  | .logFormat => env.logFormat
  | .inkey => env.inkey
  | _ => none

/-! ### Parsers -/

/-- A command and the texts of its arguments. A flag that is given has the empty text. -/
structure Matches where
  verb : Verb
  value? : Arg → Option String

namespace Matches

/-- A command with these settings of its arguments. -/
def ofSettings (verb : Verb) (settings : List (Arg × String)) : Matches :=
  ⟨verb, fun a => settings.lookup a⟩

/-- What was given, completed: an argument that was not given has the text of the environment, if
the command looks for it there, or else its default. -/
def completed (given : Matches) (env : Environment) : Matches :=
  ⟨given.verb, fun a =>
    ((given.value? a).or
      (if a ∈ (Level.below given.verb).fromEnvironment then env.value? a else none)).or a.default?⟩

end Matches

/-- Whether arguments can have what the environment says of them, as far as it is asked. An argument
on diagnostics is given at one level at most, and the environment is asked at the other. -/
def Environment.Suits (env : Environment) (given : Matches) : Prop :=
  ∀ a ∈ (Level.below given.verb).fromEnvironment, given.value? a = none ∨ a.isDiagnostic = true →
    ∀ text, env.value? a = some text → a.accepts text = true

/-- A reader of command lines. -/
structure Parser where
  /-- What the words of a line give, before anything else is asked. -/
  given : List String → Except Stop Matches
  /-- What a line comes to. -/
  parse : Environment → List String → Except Stop Matches

/-! ### Words -/

/-- The characters behind the name of an option. -/
def attachedChars : Option String → List Char
  | none => []
  | some value => '=' :: value.toList

/-- The word for an option with this long name, and with this value if there is one. -/
def optionWord (name : String) (value : Option String) : String :=
  "--" ++ name ++ String.ofList (attachedChars value)

/-- Whether a word writes the option of this long name, with a value attached or without one. -/
def writesOption (name word : String) : Bool :=
  word.toList.takeWhile (fun c => c != '=') == (optionWord name none).toList

/-- Whether no word that can be an option writes the option of this name. Behind the mark no word
can. -/
def NoOption (name : String) (words : List String) : Prop :=
  ∀ word ∈ words.takeWhile (fun word => word != "--"), writesOption name word = false

/-! ### Laws -/

/-- What is assumed of a reader of command lines. -/
structure Parser.Lawful (P : Parser) : Prop where
  /-- The name of a command by itself gives nothing but the command. -/
  command : ∀ verb : Verb, P.given [verb.name] = .ok (.ofSettings verb [])
  /-- Behind the mark `--` all words are taken by their place, whatever they look like. -/
  placed : ∀ (verb : Verb) (settings : List (Arg × String)),
    settings.map Prod.fst = (Level.below verb).positionals →
    (∀ setting ∈ settings, setting.1.accepts setting.2 = true) →
    P.given (verb.name :: "--" :: settings.map Prod.snd) = .ok (.ofSettings verb settings)
  /-- The word of a flag gives it. -/
  flag : ∀ (verb : Verb) (words : List String) (settings : List (Arg × String)) (name : String)
    (a : Arg),
    P.given (verb.name :: words) = .ok (.ofSettings verb settings) →
    (Level.below verb).long? name.toList = some (.flag a) → a ∉ settings.map Prod.fst →
    P.given (verb.name :: optionWord name none :: words) =
      .ok (.ofSettings verb ((a, "") :: settings))
  /-- A value attached to an option, behind the first `=`, is taken as it is. -/
  attached : ∀ (verb : Verb) (words : List String) (settings : List (Arg × String)) (name : String)
    (a : Arg) (text : String),
    P.given (verb.name :: words) = .ok (.ofSettings verb settings) →
    (Level.below verb).long? name.toList = some (.valued a) → a ∉ settings.map Prod.fst →
    a.accepts text = true →
    P.given (verb.name :: optionWord name (some text) :: words) =
      .ok (.ofSettings verb ((a, text) :: settings))
  /-- An option on diagnostics is taken before the command as it is behind it. -/
  before : ∀ (verb : Verb) (words : List String) (settings : List (Arg × String)) (name : String)
    (a : Arg) (text : String),
    P.given words = .ok (.ofSettings verb settings) →
    a.diagnosticName? = some name → a ∉ settings.map Prod.fst → a.accepts text = true →
    P.given (optionWord name (some text) :: words) = .ok (.ofSettings verb ((a, text) :: settings))
  /-- A line is completed from the environment and the defaults, and accepted if then it has all
  that its command cannot do without. -/
  completes : ∀ (env : Environment) (words : List String) (given : Matches),
    P.given words = .ok given → env.Suits given →
    (∀ a ∈ given.verb.required, ((given.completed env).value? a).isSome) →
    P.parse env words = .ok (given.completed env)
  /-- An argument on diagnostics that neither a word nor the environment gives has its default. -/
  defaults : ∀ (env : Environment) (words : List String) (m : Matches) (a : Arg) (name : String),
    P.parse env words = .ok m → a.diagnosticName? = some name → NoOption name words →
    env.value? a = none → m.value? a = a.default?

end RoleKey.CommandLine
