import RoleKey.Files
import RoleKey.KeyError
import RoleKey.Text.Hexadecimal

/-!
Why a command fails: what went wrong, and what the command was doing.
-/

set_option autoImplicit false
set_option relaxedAutoImplicit false

namespace RoleKey

/-- What went wrong. -/
inductive Cause where
  | key (error : KeyError)
  | file (fault : ReadFault)
  | hexadecimal (fault : Text.Hexadecimal.Fault)
  /-- The seed file has nothing but blanks in it. -/
  | emptySeedFile (path : String)
deriving DecidableEq

/-- The wording of a cause. -/
def Cause.message : Cause → String
  | .key error => error.message
  | .file fault => fault.message
  | .hexadecimal fault => fault.message
  | .emptySeedFile path => "seed file " ++ path ++ " is empty"

/-- What a command was doing. -/
inductive Task where
  | readSeedFile (path : String)
  | useSeedIn (path : String)
  | readFile (path : String)
  | parseKey
  | parseSignature
  | generate
deriving DecidableEq

/-- What is said when a task fails. -/
def Task.message : Task → String
  | .readSeedFile path => "failed to read seed file " ++ path
  | .useSeedIn path => "invalid seed in " ++ path
  | .readFile path => "failed to read " ++ path
  | .parseKey => "failed to parse key"
  | .parseSignature => "signature is not valid hex"
  | .generate => "failed to generate key pair"

/-- A failure of a command. -/
structure Failure where
  task : Option Task
  cause : Cause
deriving DecidableEq

namespace Failure

/-- What is said of a failure, the outermost first. -/
def chain (f : Failure) : List String := (f.task.map Task.message).toList ++ [f.cause.message]

/-- A failure in one line. -/
def line (f : Failure) : String := ": ".intercalate f.chain

/-- A failure as the program reports it: the outermost message, and the cause below it. -/
def report (f : Failure) : String :=
  match f.task with
  | some task => "Error: " ++ task.message ++ "\n\nCaused by:\n    " ++ f.cause.message ++ "\n"
  | none => "Error: " ++ f.cause.message ++ "\n"

/-- The failure of a task on keys. -/
def ofKey {α : Type} (task : Option Task) (outcome : Except KeyError α) : Except Failure α :=
  outcome.mapError fun e => ⟨task, .key e⟩

/-- The failure of a task on files. -/
def ofFile {α : Type} (task : Task) (outcome : Except ReadFault α) : Except Failure α :=
  outcome.mapError fun e => ⟨some task, .file e⟩

end Failure

end RoleKey
