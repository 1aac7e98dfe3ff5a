import RoleKey.Text.Record

/-!
Diagnostic events.

An event has a level, a target that tells which part of the program it is from, a message and
fields. It is written as a line for a person or as a JSON record.
-/

set_option autoImplicit false
set_option relaxedAutoImplicit false

namespace RoleKey.Diagnostics

/-- How much an event matters. -/
inductive Level where
  | error
  | warn
  | info
  | debug
  | trace
deriving DecidableEq

namespace Level

/-- The place of a level: the less it matters, the higher. -/
def rank : Level → Nat
  | error => 1
  | warn => 2
  | info => 3
  | debug => 4
  | trace => 5

/-- The name of a level, as events show it. -/
def name : Level → String
  | error => "ERROR"
  | warn => "WARN"
  | info => "INFO"
  | debug => "DEBUG"
  | trace => "TRACE"

end Level

/-- How events are written. -/
inductive Format where
  /-- A line for a person. -/
  | pretty
  /-- A JSON record. -/
  | json
deriving DecidableEq

namespace Format

/-- The name of a format. -/
def name : Format → String
  | pretty => "pretty"
  | json => "json"

/-- The format with this name. -/
def ofName? (s : String) : Option Format := [pretty, json].find? fun f => f.name == s

end Format

/-- A diagnostic event. -/
structure Event where
  level : Level
  target : String
  message : String
  fields : Text.Record
deriving DecidableEq

namespace Event

/-- The members of an event's JSON record. -/
def record (e : Event) : Text.Record :=
  [("level", .text e.level.name), ("message", .text e.message)] ++ e.fields ++
    [("target", .text e.target)]

/-- The line of an event: the level in five columns, the target, the message and the fields. -/
def line (e : Event) : String :=
  let padding := String.ofList (List.replicate (5 - e.level.name.length) ' ')
  let fields := e.fields.map fun f => " " ++ f.1 ++ "=" ++ f.2.plain
  padding ++ e.level.name ++ " " ++ e.target ++ ": " ++ e.message ++ String.join fields

/-- An event in a format. -/
def written (format : Format) (e : Event) : String :=
  match format with
  | .pretty => e.line
  | .json => e.record.compact

end Event

end RoleKey.Diagnostics
