import RoleKey.Diagnostics.Directive
import RoleKey.Diagnostics.FilterReader

/-!
Which events are let through.

A filter is written as directives between commas. Of the directives that cover an event the most
specific one decides, and of those that are equally specific the last; an event that no directive
covers is dropped. A filter without directives lets errors through. `reader` is the reader of
filters that the program runs with. It stands for tracing-subscriber, and gives up on texts that
have to be cut inside a character as that does.
-/

set_option autoImplicit false
set_option relaxedAutoImplicit false

namespace RoleKey.Diagnostics

/-- A filter. -/
structure Filter where
  directives : List Directive
deriving DecidableEq

namespace Filter

/-- The pieces of a filter's text that are not empty. -/
def pieces (text : String) : List (List Char) :=
  (Text.split ',' text.toList).filter fun piece => !piece.isEmpty

/-- The filter of these directives; without any, errors pass. `unseen` tells that there were others,
which cover no event. -/
def ofDirectives (directives : List Directive) (unseen : Bool) : Filter :=
  if directives.isEmpty && !unseen then ⟨[⟨[], none, Level.error.rank⟩]⟩ else ⟨directives⟩

/-- The filter of the outcomes of reading directives. -/
def ofOutcomes (outcomes : List (Option Directive)) : Filter :=
  ofDirectives (outcomes.filterMap id) (outcomes.any Option.isNone)

/-- That reading a text is given up, because a part of it would be severed. -/
def severed : Abandonment := ⟨DirectiveFault.severed.message⟩

/-- The filter of a text, if every directive of it is one. The first that is none decides. -/
def strict (text : String) : Except Abandonment (Option Filter) :=
  match (pieces text).mapM Directive.ofText? with
  | .ok outcomes => .ok (some (ofOutcomes outcomes))
  | .error .severed => .error severed
  | .error _ => .ok none

/-- What is said of a directive that is passed over. -/
def note (piece : List Char) (fault : DirectiveFault) : String :=
  "ignoring \x60" ++ String.ofList piece ++ "\x60: " ++ fault.message

/-- What is said of the outcome of reading a directive, if it is passed over. -/
def note? (piece : List Char) : Except DirectiveFault (Option Directive) → Option String
  | .ok _ => none
  | .error fault => some (note piece fault)

/-- Whether a directive is one at which reading is given up. -/
def isSevered : Except DirectiveFault (Option Directive) → Bool
  | .error .severed => true
  | _ => false

/-- The filter of those directives of a text that are directives, and a note on each that is
not. -/
def lenient (text : String) : Except Abandonment (Filter × List String) :=
  if (pieces text).any fun piece => isSevered (Directive.ofText? piece) then .error severed
  else .ok (ofOutcomes ((pieces text).filterMap fun piece => (Directive.ofText? piece).toOption),
    (pieces text).filterMap fun piece => note? piece (Directive.ofText? piece))

/-- The later of two directives, unless the earlier one is more specific. -/
def moreSpecific (found : Option Directive) (d : Directive) : Option Directive :=
  match found with
  | none => some d
  | some best => if best.isAtMost d then some d else some best

/-- The directive that decides on an event: of those that cover it, the last of the most specific
ones. -/
def deciding (f : Filter) (e : Event) : Option Directive :=
  (f.directives.filter fun d => d.covers e).foldl moreSpecific none

/-- Whether an event passes. -/
def passes (f : Filter) (e : Event) : Bool :=
  match f.deciding e with
  | some d => decide (e.level.rank ≤ d.threshold)
  | none => false

/-- The reader of this program. -/
def reader : FilterReader where
  strict text := (strict text).map (Option.map passes)
  lenient text := (lenient text).map fun outcome => (outcome.1.passes, outcome.2)

theorem reader_strict (text : String) :
    reader.strict text = (strict text).map (Option.map passes) := rfl

theorem reader_lenient (text : String) :
    reader.lenient text = (lenient text).map fun outcome => (outcome.1.passes, outcome.2) := rfl

end Filter

end RoleKey.Diagnostics
