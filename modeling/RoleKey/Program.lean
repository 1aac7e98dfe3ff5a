import RoleKey.Command
import RoleKey.CommandLine.Scanner
import RoleKey.Diagnostics.Filter

/-!
The whole program: from words, settings and files to what is printed and how it exits.

`runWith` reads the command line, chooses a filter, and runs the command. It takes the parser of
command lines, the reader of filters and the signature scheme as they come; `run` has those of this
program. What a command prints goes to the standard output, with a line end; failures, notes on the
filter and events go to the standard error. The exit code is 0 for a success, 1 for a command that
fails, 2 for a command line that is refused, and 101 if the reader of filters gives up.
-/

set_option autoImplicit false
set_option relaxedAutoImplicit false

namespace RoleKey.Program

open CommandLine (Environment Invocation Level Parser Request Stop UsageFault Verb)
open Diagnostics (Abandonment Event Filter FilterReader Format)

/-- The name of the program. -/
def name : String := "nk"

/-- The version of the program. -/
def version : String := "0.1.0"

/-! ### Running a request -/

/-- The filter for events, and notes on the parts of its text that are passed over: the filter of
the environment if it is set and well formed, or else the one given as the level. -/
def chooseFilter (F : FilterReader) (env : Environment) (logLevel : String) :
    Except Abandonment ((Event → Bool) × List String) :=
  match env.filter with
  | none => F.lenient logLevel
  | some text => do
    match ← F.strict text with
    | some passes => return (passes, [])
    | none => F.lenient logLevel

/-- The run of a request. -/
def perform (S : Scheme) (files : Files) (source : RandomSource) : Request → Run String
  | .generate role json => (Command.generate S role json source).1
  | .publicKey inkey => Command.publicKey S files inkey
  | .sign inkey data => Command.sign S files inkey data
  | .verify key signature data => Command.verify S files key signature data
  | .inspect value json => Command.inspect value json
  | .version => pure (name ++ " " ++ version)

/-- What a run of the program comes to. -/
inductive Outcome where
  /-- There was no command to run. -/
  | stopped (stop : Stop)
  /-- The filter could not be read, and the command did not run. -/
  | abandoned (abandonment : Abandonment)
  /-- A command ran: how events are written, notes on the filter, the events that pass, and what the
  command comes to. -/
  | ran (format : Format) (notes : List String) (events : List Event)
      (result : Except Failure String)

/-- Runs the program with these libraries. -/
def runWith (P : Parser) (F : FilterReader) (S : Scheme) (env : Environment) (files : Files)
    (source : RandomSource) (words : List String) : Outcome :=
  match P.read env words with
  | .error stop => .stopped stop
  | .ok invocation =>
    match chooseFilter F env invocation.logLevel with
    | .error abandonment => .abandoned abandonment
    | .ok (passes, notes) =>
      let done := perform S files source invocation.request
      .ran invocation.logFormat notes (done.events.filter passes) done.result

/-- Runs the program. -/
def run (S : Scheme) (env : Environment) (files : Files) (source : RandomSource)
    (words : List String) : Outcome :=
  runWith CommandLine.scanner Filter.reader S env files source words

/-! ### What is printed -/

/-- The line that tells the version, at a level of the command line. -/
def versionLine : Level → String
  | .top => name ++ " " ++ version ++ "\n"
  | .below verb => name ++ "-" ++ verb.name ++ " " ++ version ++ "\n"

/-- How the program is used. -/
def helpText : String :=
  "Usage: " ++ name ++ " [--log-level LEVEL] [--log-format pretty|json] COMMAND\n\n" ++
  "Commands:\n" ++
  "  gen ROLE [--json]               generate a key pair, print its seed and public key\n" ++
  "  pubkey -i SEEDFILE              print the public key of a seed\n" ++
  "  sign -i SEEDFILE DATAFILE       print the signature of a file\n" ++
  "  verify -k KEY -s SIG DATAFILE   verify the signature of a file\n" ++
  "  inspect VALUE [--json]          tell what a key text is\n" ++
  "  version                         print the version\n"

/-- The wording of a refused command line. -/
def usageMessage : UsageFault → String
  | .invalidValue => "an argument lacks its value or has one that it cannot have"
  | .unknownArgument => "unexpected argument"
  | .invalidCommand => "unrecognized command"
  | .missingArgument => "a required argument is missing"
  | .repeatedArgument => "an argument is given more than once"
  | .unexpectedValue => "a value is given to an option that has none"
  | .missingCommand => "a command is required"
  | .nothingGiven => "a command is required"

namespace Outcome

/-- The exit code. -/
def exitCode : Outcome → Nat
  | stopped (.usage _) => 2
  | stopped _ => 0
  | abandoned _ => 101
  | ran _ _ _ (.ok _) => 0
  | ran _ _ _ (.error _) => 1

/-- What goes to the standard output. -/
def stdout : Outcome → String
  | stopped (.usage _) => ""
  | stopped .help => helpText
  | stopped (.version level) => versionLine level
  | abandoned _ => ""
  | ran _ _ _ (.ok text) => text ++ "\n"
  | ran _ _ _ (.error _) => ""

/-- The lines of the events that pass. -/
def eventLines : Outcome → List String
  | stopped _ => []
  | abandoned _ => []
  | ran format _ events _ => events.map (Event.written format)

/-- What goes to the standard error besides events: notes on the filter, and at the end why the
program does not succeed. -/
def stderr : Outcome → String
  | stopped (.usage fault) => "error: " ++ usageMessage fault ++ "\n\n" ++ helpText
  | stopped _ => ""
  | abandoned abandonment => abandonment.reason ++ "\n"
  | ran _ notes _ result =>
    String.join (notes.map fun note => note ++ "\n") ++
      match result with
      | .ok _ => ""
      | .error failure => failure.report

end Outcome

end RoleKey.Program
