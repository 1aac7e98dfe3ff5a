import RoleKey.CommandLine.Invocation
import RoleKey.CommandLine.Scan

/-!
The parser that the program runs with.

It stands for clap. What the program assumes of that is `Parser.Lawful`, and `scanner` is lawful;
what is not in the laws, such as which fault a refused line has, is read off what clap does.

The words before a command are read at the top level, the words behind it at the level of that
command; the level below is finished first. A level is finished by settling what is held back and
taking arguments that were not given from the environment; below, the arguments that the command
cannot do without are then looked for. The options on diagnostics may be given at both levels: below
wins over above, and either over the environment.
-/

set_option autoImplicit false
set_option relaxedAutoImplicit false

namespace RoleKey.CommandLine

/-! ### Finishing a level -/

/-- Takes an argument that was not given from the environment. -/
def Scan.takeFrom (env : Environment) (s : Scan) (a : Arg) : Except Stop Scan :=
  match s.value? a, env.value? a with
  | none, some text => s.record a text
  | _, _ => .ok s

/-- Settles what is held back, and takes from the environment what was not given. The level as it
was given stays beside it. -/
def Scan.finish (env : Environment) (level : Level) (s : Scan) : Except Stop (Scan × Scan) := do
  let given ← s.settle
  return (given, ← level.fromEnvironment.foldlM (Scan.takeFrom env) given)

/-- Looks for the arguments that a command cannot do without. -/
def Scan.demand (s : Scan) (verb : Verb) : Except Stop Unit :=
  if verb.required.all fun a => (s.value? a).isSome then .ok ()
  else .error (.usage .missingArgument)

/-! ### The whole line -/

/-- What the words behind the help word stop at: each has to be a command, and no command has
commands below it. -/
def helpOn : List String → Stop
  | [] => .help
  | [word] => if isCommandWord word then .help else .usage .invalidCommand
  | _ => .usage .invalidCommand

/-- The top level, and the command with the words behind it, if a command comes. -/
def readTop : Scan → List String → Except Stop (Scan × Option (Verb × List String))
  | s, [] => .ok (s, none)
  | s, word :: rest =>
    let isCommandPlace := !s.marked && !s.awaitsValue
    match isCommandPlace, Verb.ofName? word with
    | true, some verb => .ok (s, some (verb, rest))
    | _, _ =>
      if isCommandPlace && word == helpWord then .error (helpOn rest)
      else do readTop (← s.word .top word) rest

/-- The level of a command. -/
def readBelow (verb : Verb) (words : List String) : Except Stop Scan :=
  words.foldlM (Scan.word (.below verb)) (.start (.below verb))

/-- What both levels give: an argument on diagnostics below or else above, another one below. -/
def bothLevels (verb : Verb) (top below : Scan) : Matches :=
  ⟨verb, fun a =>
    if a.isDiagnostic then (below.value? a).or (top.value? a) else below.value? a⟩

/-- What the words of a line give. -/
def scanGiven (words : List String) : Except Stop Matches := do
  match ← readTop (.start .top) words with
  | (top, some (verb, behind)) =>
    let below ← (← readBelow verb behind).settle
    let top ← top.settle
    return bothLevels verb top below
  | (_, none) => throw (.usage .missingCommand)

/-- What a line comes to. -/
def scanLine (env : Environment) (words : List String) : Except Stop Matches := do
  match ← readTop (.start .top) words with
  | (top, some (verb, behind)) =>
    let below ← readBelow verb behind
    let (givenBelow, below) ← below.finish env (.below verb)
    below.demand verb
    let (givenTop, _) ← top.finish env .top
    return (bothLevels verb givenTop givenBelow).completed env
  | (top, none) =>
    let (_, top) ← top.finish env .top
    throw (.usage (if top.settled.isEmpty then .nothingGiven else .missingCommand))

/-- The parser that reads a level word by word. -/
def scanner : Parser := ⟨scanGiven, scanLine⟩

/-- What the words of a command line ask for. -/
def read (env : Environment) (words : List String) : Except Stop Invocation :=
  scanner.read env words

end RoleKey.CommandLine
