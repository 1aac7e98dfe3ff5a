import RoleKey.Files
import RoleKey.Text.Split

/-!
A working directory of files and directories, and where paths from it lead.

An entry stands at a location, the names on the way to it; what an entry lies in is a directory,
also where none is listed. A path is followed name by name: an empty name and `.` stay, `..` goes
up, another name goes to the entry of that name, and behind a file nothing goes on. Above the
working directory no entry is known.
-/

set_option autoImplicit false
set_option relaxedAutoImplicit false

namespace RoleKey.Files

/-- The names on the way from the working directory to an entry. -/
abbrev Location := List String

/-- An entry of a working directory. -/
inductive Entry where
  | file (content : Bytes)
  | directory

/-- A working directory. -/
structure Directory where
  entries : List (Location × Entry)

/-- The names between the slashes of a path. -/
def names (path : String) : List String := (Text.split '/' path.toList).map String.ofList

/-- The location that a path spells, whatever is there. -/
def Location.ofPath (path : String) : Location :=
  (names path).foldl (fun location name =>
    if name = "" ∨ name = "." then location
    else if name = ".." then location.dropLast
    else location ++ [name]) []

namespace Directory

/-- The directory with an entry at this path, in place of the one that was there. -/
def insert (d : Directory) (path : String) (entry : Entry) : Directory :=
  ⟨(Location.ofPath path, entry) :: d.entries.filter fun e => e.1 != Location.ofPath path⟩

/-- The directory of these entries, each with its path; where two paths spell the same location, the
later entry stands. -/
def ofPaths (entries : List (String × Entry)) : Directory :=
  entries.foldl (fun d e => d.insert e.1 e.2) ⟨[]⟩

/-- The entry at a location. -/
def entry? (d : Directory) (location : Location) : Option Entry :=
  match d.entries.find? fun e => e.1 == location with
  | some e => some e.2
  | none =>
    if location.isEmpty || d.entries.any fun e => location.isPrefixOf e.1 then some .directory
    else none

/-- The directory with a file of this path and content. -/
def put (d : Directory) (path : String) (content : Bytes) : Directory :=
  d.insert path (.file content)

/-- Where following a path has come. -/
inductive Place where
  /-- The working directory, or a directory in it. -/
  | within (location : Location)
  /-- A directory above the working directory. -/
  | above
  /-- A file. -/
  | atFile (content : Bytes)

/-- The longest name of an entry, in bytes. -/
def longestName : Nat := 255

/-- The length at which a path is too long, in bytes. -/
def pathLimit : Nat := 4096

/-- The place that a name leads to. -/
def step (d : Directory) (place : Place) (name : String) : Except ReadFault Place :=
  match place with
  | .atFile _ => .error .notDirectory
  | place =>
    if name = "" ∨ name = "." then .ok place
    else if name = ".." then
      match place with
      | .within (first :: rest) => .ok (.within (first :: rest).dropLast)
      | _ => .ok .above
    else if longestName < name.utf8ByteSize then .error .nameTooLong
    else
      match place with
      | .within location =>
        match d.entry? (location ++ [name]) with
        | some (.file content) => .ok (.atFile content)
        | some .directory => .ok (.within (location ++ [name]))
        | none => .error .notFound
      | _ => .error .notFound

/-- The place that a path leads to. -/
def resolve (d : Directory) (path : String) : Except ReadFault Place :=
  if path.toList.contains '\x00' then .error .nullInPath
  else if pathLimit ≤ path.utf8ByteSize then .error .nameTooLong
  else
    match path.toList with
    | [] => .error .notFound
    | first :: _ =>
      (names path).foldlM d.step (if first = '/' then .above else .within [])

/-- What paths from the working directory lead to. -/
def files (d : Directory) : Files := fun path =>
  match d.resolve path with
  | .ok (.atFile content) => ⟨true, .ok content⟩
  | .ok _ => ⟨false, .error .isDirectory⟩
  | .error fault => ⟨false, .error fault⟩

end Directory

end RoleKey.Files
