import RoleKey.Text.Utf8

/-!
What the paths that a command is given lead to.

The state of the files is a function from paths. A path leads to a node: whether it is a regular
file, and what reading it gives.
-/

set_option autoImplicit false
set_option relaxedAutoImplicit false

namespace RoleKey

/-- Why reading fails. -/
inductive ReadFault where
  /-- The path leads nowhere. -/
  | notFound
  /-- The path leads to a directory. -/
  | isDirectory
  /-- The path goes on behind a file. -/
  | notDirectory
  /-- A name in the path is too long. -/
  | nameTooLong
  /-- The path holds a null character. -/
  | nullInPath
  /-- The file was read as text and is none. -/
  | notText
  /-- Another fault of the system, in its words. -/
  | other (message : String)
deriving DecidableEq

/-- The wording of a fault. -/
def ReadFault.message : ReadFault → String
  | .notFound => "No such file or directory (os error 2)"
  | .isDirectory => "Is a directory (os error 21)"
  | .notDirectory => "Not a directory (os error 20)"
  | .nameTooLong => "File name too long (os error 36)"
  | .nullInPath => "file name contained an unexpected NUL byte"
  | .notText => "stream did not contain valid UTF-8"
  | .other message => message

/-- What a path leads to. -/
structure Node where
  isRegular : Bool
  content : Except ReadFault Bytes

/-- What every path leads to. -/
abbrev Files := String → Node

namespace Files

/-- The bytes behind a path. -/
def read (files : Files) (path : String) : Except ReadFault Bytes := (files path).content

/-- The text behind a path. -/
def readText (files : Files) (path : String) : Except ReadFault String := do
  match Text.ofUtf8? (← files.read path) with
  | some text => return text
  | none => throw .notText

end Files

end RoleKey
