import RoleKey.CommandLine.Parser

/-!
Reading the words of one level, by the parser that the program runs with.

A word is an option, the mark `--` behind which all words are taken by their place, or a plain
text. An occurrence of an argument is held back until the next one comes: only then is it settled,
that is, found to lack its value, to repeat an argument, or to have a value which the argument
cannot have, in this order. An option with an attached value is settled at once.
-/

set_option autoImplicit false
set_option relaxedAutoImplicit false

namespace RoleKey.CommandLine

/-! ### Words -/

/-- The forms of a word. -/
inductive Word where
  /-- The mark `--`. -/
  | mark
  /-- An option by its name, perhaps with a value attached. -/
  | long (name : List Char) (attached : Option String)
  /-- An option by its letter, and what stands behind the letter. -/
  | short (letter : Char) (behind : List Char)
  | plain (text : String)
deriving DecidableEq

/-- The text behind the first `=`, if there is one. -/
def behindEquals (s : List Char) : Option String :=
  match s.dropWhile fun c => c != '=' with
  | [] => none
  | _ :: value => some (String.ofList value)

/-- The form of a word. A lone `-` is a plain text. -/
def Word.of (text : String) : Word :=
  match text.toList with
  | ['-', '-'] => mark
  | '-' :: '-' :: rest => long (rest.takeWhile fun c => c != '=') (behindEquals rest)
  | '-' :: letter :: behind => short letter behind
  | _ => plain text

/-- The value that stands behind an option's letter, with or without `=` between them. -/
def attachedToLetter : List Char → Option String
  | [] => none
  | '=' :: value => some (String.ofList value)
  | value => some (String.ofList value)

/-! ### The state of reading -/

/-- An occurrence of an argument that is not settled yet. -/
structure Pending where
  arg : Arg
  value : Option String
deriving DecidableEq

/-- What has been read of a level. -/
structure Scan where
  /-- The arguments that are settled, with their values. -/
  settled : List (Arg × String)
  /-- The occurrence that is held back. -/
  pending : Option Pending
  /-- The arguments that are still to come by their place. -/
  positionals : List Arg
  /-- Whether the mark has been read. -/
  marked : Bool
deriving DecidableEq

namespace Scan

/-- Nothing read. -/
def start (level : Level) : Scan := ⟨[], none, level.positionals, false⟩

/-- The value of a settled argument. -/
def value? (s : Scan) (a : Arg) : Option String := s.settled.lookup a

/-- Whether the next plain word is an option's value. -/
def awaitsValue (s : Scan) : Bool := s.pending.any fun p => p.value.isNone

/-- Settles one occurrence. -/
def record (s : Scan) (a : Arg) (text : String) : Except Stop Scan :=
  if (s.value? a).isSome then .error (.usage .repeatedArgument)
  else if a.accepts text then .ok { s with settled := (a, text) :: s.settled }
  else .error (.usage .invalidValue)

/-- Settles what is held back. -/
def settle (s : Scan) : Except Stop Scan :=
  match s.pending with
  | none => .ok s
  | some ⟨_, none⟩ => .error (.usage .invalidValue)
  | some ⟨a, some text⟩ => ({ s with pending := none } : Scan).record a text

/-- Reads an option that has a value. -/
def valued (s : Scan) (a : Arg) (attached : Option String) : Except Stop Scan := do
  let s ← s.settle
  match attached with
  | some text => s.record a text
  | none => return { s with pending := some ⟨a, none⟩ }

/-- Reads an option. -/
def switch (level : Level) (s : Scan) (option : Switch) (attached : Option String) :
    Except Stop Scan :=
  match option, attached with
  | .valued a, attached => s.valued a attached
  | _, some _ => .error (.usage .unexpectedValue)
  | .flag a, none => do (← s.settle).record a ""
  | .help, none => do
    let _ ← s.settle
    throw .help
  | .version, none => do
    let _ ← s.settle
    throw (.version level)

/-- The fault of a plain word at a level that takes none at this place. -/
def surplus (level : Level) (s : Scan) (text : String) : UsageFault :=
  match level with
  | .top => if s.marked && isCommandWord text then .unknownArgument else .invalidCommand
  | .below _ => .unknownArgument

/-- Reads a word by its place. -/
def positional (level : Level) (s : Scan) (text : String) : Except Stop Scan :=
  match s.positionals with
  | [] => .error (.usage (surplus level s text))
  | a :: rest => do
    let s ← s.settle
    return { s with pending := some ⟨a, some text⟩, positionals := rest }

/-- Reads a plain word: the value that an option waits for, or a text by its place. -/
def plain (level : Level) (s : Scan) (text : String) : Except Stop Scan :=
  match s.pending with
  | some ⟨a, none⟩ => .ok { s with pending := some ⟨a, some text⟩ }
  | _ => s.positional level text

/-- Reads a word that names no command. -/
def word (level : Level) (s : Scan) (text : String) : Except Stop Scan :=
  if s.marked then s.positional level text
  else
    match Word.of text with
    | .mark => .ok { s with marked := true }
    | .long name attached =>
      match level.long? name with
      | some option => s.switch level option attached
      | none => .error (.usage .unknownArgument)
    | .short letter behind =>
      match level.short? letter with
      | some (.valued a) => s.valued a (attachedToLetter behind)
      | some option => s.switch level option none
      | none => .error (.usage .unknownArgument)
    | .plain text => s.plain level text

end Scan

end RoleKey.CommandLine
