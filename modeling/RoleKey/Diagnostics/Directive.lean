import RoleKey.Diagnostics.Event
import RoleKey.Diagnostics.Pattern
import RoleKey.Text.Split

/-!
Directives: which events are let through, from one source.

A directive is a level, which holds for every target; a target, which lets everything from it
through; or a target and a level with `=` between them. Behind the target, brackets may narrow it
to a span, or in braces to a field and its value.

This stands for the library that the program has for directives, tracing-subscriber; what is assumed
of it is in `FilterReader.Lawful`. It has an oddity: the parts are found in the text without the
blanks around it, but taken at the same bytes of the text with them. So blanks in front shift every
part, blanks at the end belong to the last, and where a part would begin or end inside a character,
reading is given up (`slice`).
-/

set_option autoImplicit false
set_option relaxedAutoImplicit false

namespace RoleKey.Diagnostics

/-! ### Thresholds -/

/-- The rank up to which events pass: 0 for none, 5 for all. -/
abbrev Threshold := Nat

/-- The threshold that lets everything through. -/
def everything : Threshold := Level.trace.rank

/-- The names of thresholds, with their values. -/
def thresholdNames : List (String × Threshold) :=
  [("off", 0), ("error", 1), ("warn", 2), ("info", 3), ("debug", 4), ("trace", 5)]

/-- Whether every character is a decimal digit, and there is one. -/
def areDigits (s : List Char) : Bool := !s.isEmpty && s.all Char.isDigit

/-- The value of a decimal numeral, which may have a plus sign. -/
def numeral? (s : List Char) : Option Nat :=
  let digits := match s with
    | '+' :: digits => digits
    | digits => digits
  if areDigits digits then
    some (digits.foldl (fun n c => n * 10 + (c.toNat - '0'.toNat)) 0)
  else none

/-- The threshold of a text: a numeral up to five, or a name in any case. -/
def threshold? (s : List Char) : Option Threshold :=
  match (numeral? s).filter fun n => decide (n ≤ everything) with
  | some n => some n
  | none =>
    (thresholdNames.find? fun t => t.1.toList == s.map Char.toLower).map Prod.snd

/-! ### Values of fields -/

/-- Whether a text without its sign is a number: an infinity, no number, or digits with or without a
point and a power of ten. -/
def isMagnitude (s : List Char) : Bool :=
  let lower := s.map Char.toLower
  let mantissa := lower.takeWhile fun c => c != 'e'
  let power := lower.dropWhile fun c => c != 'e'
  let whole := mantissa.takeWhile fun c => c != '.'
  let fraction := (mantissa.dropWhile fun c => c != '.').drop 1
  let exponent := match power.drop 1 with
    | '+' :: digits => digits
    | '-' :: digits => digits
    | digits => digits
  ["inf".toList, "infinity".toList, "nan".toList].contains lower ||
    (areDigits (whole ++ fraction) && (power.isEmpty || areDigits exponent))

/-- Whether a text is a number. -/
def isNumber (s : List Char) : Bool :=
  match s with
  | '+' :: rest => isMagnitude rest
  | '-' :: rest => isMagnitude rest
  | rest => isMagnitude rest

/-- Why a text cannot be the value of a field, if it cannot: a value is a number or a pattern. -/
def valueFault? (s : List Char) : Option Pattern.Fault :=
  if isNumber s then none else Pattern.fault? s

/-! ### Directives -/

/-- One directive: which events it covers, and up to where they pass. -/
structure Directive where
  /-- What the target of an event has to begin with. -/
  target : List Char
  /-- The field that an event has to have, if there is one. -/
  field : Option (List Char)
  threshold : Threshold
deriving DecidableEq

/-- Why a directive is not one. -/
inductive DirectiveFault where
  /-- It does not have the form of a directive. -/
  | form
  /-- What stands behind `=` is no level. -/
  | level
  /-- The value of its field is none. -/
  | value (fault : Pattern.Fault)
  /-- A part of it would begin or end inside a character. -/
  | severed
deriving DecidableEq

/-- The wording of a refusal. -/
def DirectiveFault.message : DirectiveFault → String
  | .form => "invalid filter directive"
  | .level => "error parsing level filter: expected one of \"off\", \"error\", \"warn\", " ++
      "\"info\", \"debug\", \"trace\", or a number 0-5"
  | .value fault => "invalid field filter: " ++ fault.message
  | .severed => "a part of the directive is not at the border of a character"

/-- Whether a directive may begin with this character, other than a bracket. -/
def mayBegin (c : Char) : Bool :=
  Text.isLetterOrNumeric c || c == '-' || c == ':' || c == '_'

/-- The number of bytes of a text. -/
def width : List Char → Nat
  | [] => 0
  | c :: rest => c.utf8Size + width rest

/-- A text in two at a byte, unless that is inside a character or behind the end. -/
def splitAtByte? : List Char → Nat → Option (List Char × List Char)
  | s, 0 => some ([], s)
  | [], _ + 1 => none
  | c :: rest, n + 1 =>
    if n + 1 < c.utf8Size then none
    else (splitAtByte? rest (n + 1 - c.utf8Size)).map fun parts => (c :: parts.1, parts.2)

/-- What stands behind byte `start`. -/
def sliceFrom (s : List Char) (start : Nat) : Except DirectiveFault (List Char) :=
  match splitAtByte? s start with
  | some parts => .ok parts.2
  | none => .error .severed

/-- What stands behind byte `start` and not behind byte `stop`. -/
def slice (s : List Char) (start stop : Nat) : Except DirectiveFault (List Char) := do
  match splitAtByte? (← sliceFrom s start) (stop - start) with
  | some parts => return parts.1
  | none => throw .severed

namespace Directive

/-- The threshold behind `=`; nothing there lets everything through. -/
def thresholdOf (s : List Char) : Except DirectiveFault Threshold :=
  if s.isEmpty then .ok everything
  else match threshold? s with
    | some t => .ok t
    | none => .error .level

/-- The threshold behind brackets: `rest` is what stands at byte `place` of a directive. -/
def thresholdAt (whole : List Char) (place : Nat) (rest : List Char) :
    Except DirectiveFault Threshold :=
  match rest with
  | [] => .ok everything
  | '=' :: _ => do thresholdOf (← sliceFrom whole (place + 1))
  | _ => .error .form

/-- The field that an event has to have, of a text in braces. With a value there is none, since only
spans are compared with values. -/
def constraint? (s : List Char) : Except DirectiveFault (Option (List Char)) :=
  if s.isEmpty then .error .form
  else match Text.split '=' s with
    | _ :: value :: _ =>
      match valueFault? value with
      | some fault => .error (.value fault)
      | none => .ok none
    | _ => .ok (some s)

/-- The directive with a target and a field: `rest` is what stands behind the opening brace, at byte
`place`. One for a span covers no event, since no event of this program is inside a span. -/
def braced? (whole target : List Char) (inSpan : Bool) (place : Nat) (rest : List Char) :
    Except DirectiveFault (Option Directive) :=
  let field := rest.takeWhile fun c => c != '\x7d'
  let fieldEnd := place + width field
  match rest.drop field.length with
  | [] => .error .form
  | _ :: behind => do
    let written ← slice whole place fieldEnd
    let constraint ← constraint? written
    match behind with
    | ']' :: rest =>
      let threshold ← thresholdAt whole (fieldEnd + 2) rest
      return if inSpan then none else constraint.map fun name => ⟨target, some name, threshold⟩
    | _ => throw .form

/-- The directive with a target and brackets: `rest` is what stands behind the opening bracket, at
byte `place`. -/
def bracketed? (whole target : List Char) (place : Nat) (rest : List Char) :
    Except DirectiveFault (Option Directive) :=
  let span := rest.takeWhile fun c => c != ']' && c != '\x7b'
  let spanEnd := place + width span
  match rest.drop span.length with
  | [] => .error .form
  | closing :: behind => do
    let _ ← slice whole place spanEnd
    if closing = ']' then
      let _ ← thresholdAt whole (spanEnd + 1) behind
      return none
    else braced? whole target (!span.isEmpty) (spanEnd + 1) behind

/-- The directive behind its target, which ends in front of `rest`. -/
def targeted? (whole target rest : List Char) : Except DirectiveFault (Option Directive) :=
  let place := width target
  match rest with
  | [] =>
    match threshold? whole with
    | some threshold => .ok (some ⟨[], none, threshold⟩)
    | none => .ok (some ⟨whole, none, everything⟩)
  | '=' :: _ => do
    let target ← slice whole 0 place
    let threshold ← thresholdOf (← sliceFrom whole (place + 1))
    return some ⟨target, none, threshold⟩
  | _ :: rest => do
    let target ← slice whole 0 place
    bracketed? whole target (place + 1) rest

/-- The directive of a text; none if it is one that covers no event. -/
def ofText? (whole : List Char) : Except DirectiveFault (Option Directive) :=
  match Text.trimChars whole with
  | [] => .error .form
  | '[' :: rest => bracketed? whole [] 1 rest
  | first :: rest =>
    let target := (first :: rest).takeWhile fun c => c != '=' && c != '['
    if mayBegin first then targeted? whole target ((first :: rest).drop target.length)
    else .error .form

/-- Whether a directive covers an event: its target is the beginning of the event's, and the event
has its field. The message is a field too. -/
def covers (d : Directive) (e : Event) : Bool :=
  d.target.isPrefixOf e.target.toList &&
    match d.field with
    | none => true
    | some name => ("message" :: e.fields.map Prod.fst).contains (String.ofList name)

/-- Whether a name comes before another one in the order of code points, or is the same. -/
def nameAtMost : List Char → List Char → Bool
  | [], _ => true
  | _ :: _, [] => false
  | a :: s, b :: t => decide (a.toNat < b.toNat) || (a == b && nameAtMost s t)

/-- Whether a directive is at most as specific as another one that covers the same event: its target
is shorter, or it has no field, or one whose name comes first. -/
def isAtMost (d e : Directive) : Bool :=
  decide (d.target.length < e.target.length) ||
    (d.target.length == e.target.length &&
      match d.field, e.field with
      | none, _ => true
      | some _, none => false
      | some a, some b => nameAtMost a b)

end Directive

end RoleKey.Diagnostics
