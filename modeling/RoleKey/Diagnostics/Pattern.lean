import RoleKey.Diagnostics.Pattern.Bracket

/-!
Whether a text is a pattern: a regular expression that a deterministic automaton can search for.

A pattern is read from left to right. Characters stand for themselves, `.`, `^` and `$` have their
usual meaning, a backslash begins an escape, brackets hold a class of characters, parentheses a
group, `|` divides alternatives, and `?`, `*` and `+` repeat what stands before them. Switches such
as `(?i)` hold to the end of the group that they stand in. There are no tables of the characters of
all scripts here: classes that need them, and letters of either case while `u` is on, are refused.
A boundary of words of all scripts can be written, but not searched for. A brace is refused: with
its partner it would make a counted repetition, but a text with a closing brace never gets here.

This module and those below it stand for regex-syntax, by which tracing-subscriber has regular
expressions read. They serve the reader of filters that the program runs with, and its notes on what
it passes over; what is assumed of a reader of filters (`FilterReader.Lawful`) says nothing of
patterns.
-/

set_option autoImplicit false
set_option relaxedAutoImplicit false

namespace RoleKey.Diagnostics.Pattern

/-- Why a text is no pattern. -/
inductive Fault where
  /-- It is not written as one, is nested too deeply, or needs a table. -/
  | form
  /-- It asks for a boundary of words of all scripts. -/
  | wordBoundary
deriving DecidableEq

/-- The wording of a refusal. -/
def Fault.message : Fault → String
  | .form => "error building NFA"
  | .wordBoundary => "unsupported regex feature for DFAs: cannot build DFAs for regexes with " ++
      "Unicode word boundaries; switch to ASCII word boundaries, or heuristically enable " ++
      "Unicode word boundaries or use a different regex engine"

/-! ### Groups -/

/-- What has been read of a group, or of a pattern outside all groups. -/
structure Group where
  /-- The switches that hold. -/
  switches : Switches
  /-- The depth of the deepest alternative before the last `|`. -/
  alternatives : Option Nat
  /-- What stands behind it. -/
  row : Row
  /-- Whether the last thing in the row can be repeated. -/
  repeatable : Bool

namespace Group

/-- A group in which nothing has been read. -/
def begun (sw : Switches) : Group := ⟨sw, none, .empty, false⟩

/-- The depth of what is in the group. -/
def depth (g : Group) : Nat :=
  match g.alternatives with
  | none => g.row.depth
  | some before => max before g.row.depth + 1

/-- Adds something that can be repeated. -/
def add (g : Group) (depth : Nat) : Group :=
  { g with row := g.row.add depth, repeatable := true }

/-- Turns the switches, which counts as a thing that cannot be repeated. -/
def turn (g : Group) (sw : Switches) : Group :=
  { g with switches := sw, row := g.row.add 0, repeatable := false }

/-- Begins another alternative. -/
def divide (g : Group) : Group :=
  { g with
    alternatives := some (max (g.alternatives.getD 0) g.row.depth)
    row := .empty
    repeatable := false }

/-- Repeats the last thing. -/
def repeatLast? (g : Group) : Option Group :=
  if g.repeatable then some { g with row := g.row.wrapLast } else none

/-- Whether the switches allow for something that stands for itself. -/
def admits (g : Group) : Atom → Bool
  | .literal code isByte =>
    !g.switches.foldsCharacters &&
      (g.switches.unicode || !isByte || decide (code < Text.asciiLimit))
  | .family negated => !g.switches.unicode && !negated
  | .any => g.switches.unicode
  | .edge => true
  | .boundary => true

end Group

/-! ### Patterns -/

/-- Where the reading of a pattern has come. -/
structure State where
  /-- The innermost group that is open. -/
  inner : Group
  /-- The others, from the inside out. -/
  outer : List Group
  /-- The names of groups. -/
  names : List (List Char)
  /-- Whether a boundary of words of all scripts has been read. -/
  boundary : Bool

namespace State

/-- The beginning of a pattern. -/
def initial : State := ⟨.begun .initial, [], [], false⟩

/-- Whether a text can name a group. -/
def isGroupName : List Char → Bool
  | [] => false
  | first :: rest =>
    (first == '_' || Text.isLetter first) &&
      rest.all fun c => c == '_' || c == '.' || c == '[' || c == ']' || Text.isLetterOrNumeric c

/-- Opens a group in which these switches hold. -/
def openGroup (st : State) (sw : Switches) : State :=
  { st with inner := .begun sw, outer := st.inner :: st.outer }

/-- Closes a group. -/
def closeGroup? (st : State) : Option State :=
  match st.outer with
  | [] => none
  | g :: outer => some { st with inner := g.add (st.inner.depth + 1), outer := outer }

/-- Opens a group whose name begins here. -/
def namedGroup? (st : State) (s : List Char) : Option (State × List Char) :=
  let name := s.takeWhile fun c => c != '>'
  match s.drop name.length with
  | [] => none
  | _ :: rest =>
    if isGroupName name && !st.names.contains name then
      some ({ st.openGroup st.inner.switches with names := name :: st.names }, rest)
    else none

/-- Reads what stands behind an opening parenthesis: it opens a group, or turns switches. -/
def group? (st : State) (s : List Char) : Option (State × List Char) :=
  match st.inner.switches.skip s with
  | '?' :: 'P' :: '<' :: rest => st.namedGroup? rest
  | '?' :: '<' :: rest => st.namedGroup? rest
  | '?' :: rest => do
    let letters := rest.takeWhile fun c => c != ':' && c != ')'
    let sw ← st.inner.switches.turnAll? letters
    match rest.drop letters.length with
    | ':' :: rest => return (st.openGroup sw, rest)
    | ')' :: rest =>
      if letters.isEmpty then none else return ({ st with inner := st.inner.turn sw }, rest)
    | _ => none
  | rest => some (st.openGroup st.inner.switches, rest)

/-- Reads something that stands for itself. -/
def atom? (st : State) (atom : Atom) : Option State :=
  if st.inner.admits atom then
    some { st with
      inner := st.inner.add 0
      boundary := st.boundary || (atom == .boundary && st.inner.switches.unicode) }
  else none

/-- One step of reading: the first character, or what begins with it. -/
def step? (st : State) : List Char → Option (State × List Char)
  | [] => none
  | c :: rest =>
    if c = '(' then st.group? rest
    else if c = ')' then do return (← st.closeGroup?, rest)
    else if c = '|' then some ({ st with inner := st.inner.divide }, rest)
    else if c = '[' then do
      let (depth, rest) ← class? st.inner.switches rest
      return ({ st with inner := st.inner.add depth }, rest)
    else if c = '?' ∨ c = '*' ∨ c = '+' then do
      let inner ← st.inner.repeatLast?
      return ({ st with inner := inner }, if rest.head? == some '?' then rest.drop 1 else rest)
    else if c = '\x7b' then none
    else if c = '.' then do return (← st.atom? .any, rest)
    else if c = '^' ∨ c = '$' then do return (← st.atom? .edge, rest)
    else if c = '\\' then do
      let (atom, rest) ← escape? st.inner.switches rest
      return (← st.atom? atom, rest)
    else do return (← st.atom? (.literal c.toNat false), rest)

/-- Reads to the end of a pattern. Each round takes a character, so the length of the text is fuel
enough. -/
def run? : Nat → State → List Char → Option State
  | 0, st, s => if s.isEmpty then some st else none
  | fuel + 1, st, s =>
    match st.inner.switches.skip s with
    | [] => some st
    | s => do
      let (st, rest) ← st.step? s
      st.run? fuel rest

end State

/-- Why a text is no pattern, if it is none. -/
def fault? (s : List Char) : Option Fault :=
  match State.initial.run? s.length s with
  | none => some .form
  | some st =>
    if !st.outer.isEmpty || decide (depthLimit < st.inner.depth) then some .form
    else if st.boundary then some .wordBoundary
    else none

end RoleKey.Diagnostics.Pattern
