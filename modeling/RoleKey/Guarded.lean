import RoleKey.SeedText
import RoleKey.Text.Utf8

/-!
The codecs with a guard on every operation that could go wrong.

Each function here takes the steps of the codec that it is named after, one byte at a time, and
looks before each of them: whether an index is within its list, whether a difference is not below
zero, whether a shift stays within its word and drops no bit that is set. Where a guard does not
hold the function stops with a `Breach`, which is no refusal of the text.
-/

set_option autoImplicit false
set_option relaxedAutoImplicit false

namespace RoleKey

/-- What an operation can do wrong. -/
inductive Breach where
  /-- An index is behind the end. -/
  | index
  /-- A part reaches behind the end, or the first element of nothing is taken off. -/
  | part
  /-- A difference is below zero. -/
  | difference
  /-- A word is shifted by as many places as it has, or by more. -/
  | shiftAmount
  /-- A bit that is set falls out of a word. -/
  | bitLost
deriving DecidableEq

/-- Why guarded code stops. -/
inductive Halt where
  | breach (b : Breach)
  | refused (cause : KeyError)
deriving DecidableEq

/-- What guarded code comes to. -/
abbrev Guarded (α : Type) := Except Halt α

namespace Guarded

/-! ### Operations -/

section Operations

variable {α : Type}

def refuse (cause : KeyError) : Guarded α := .error (.refused cause)

/-- What comes to be without a breach. -/
def lift (outcome : Except KeyError α) : Guarded α := outcome.mapError .refused

def index (xs : List α) (i : Nat) : Guarded α :=
  match xs[i]? with
  | some x => .ok x
  | none => .error (.breach .index)

def front (xs : List α) (n : Nat) : Guarded (List α) :=
  if n ≤ xs.length then .ok (xs.take n) else .error (.breach .part)

def back (xs : List α) (n : Nat) : Guarded (List α) :=
  if n ≤ xs.length then .ok (xs.drop n) else .error (.breach .part)

def withoutFirst : List α → Guarded (List α)
  | [] => .error (.breach .part)
  | _ :: rest => .ok rest

/-- The difference, and that it is one. -/
def minus (m n : Nat) : Guarded { d : Nat // d + n = m } :=
  if h : n ≤ m then .ok ⟨m - n, Nat.sub_add_cancel h⟩ else .error (.breach .difference)

def shiftLeft (word : UInt16) (n : Nat) : Guarded UInt16 :=
  if 16 ≤ n then .error (.breach .shiftAmount)
  else if word.toNat <<< n < 65536 then .ok (word <<< UInt16.ofNat n)
  else .error (.breach .bitLost)

def shiftRight (word : UInt16) (n : Nat) : Guarded UInt16 :=
  if 16 ≤ n then .error (.breach .shiftAmount) else .ok (word >>> UInt16.ofNat n)

/-- A word as a byte. -/
def narrow (word : UInt16) : Guarded UInt8 :=
  if word.toNat < 256 then .ok word.toUInt8 else .error (.breach .bitLost)

/-- The word whose lowest `n` bits are set. -/
def lowMask (n : Nat) : Guarded UInt16 := do
  let top ← shiftLeft 1 n
  let ⟨mask, _⟩ ← minus top.toNat 1
  return UInt16.ofNat mask

end Operations

/-! ### Base 32 -/

namespace Base32

open RoleKey.Base32 (Register alphabet digit?)

/-- Takes whole digits off the lowest `bits` bits of a word; also tells how many bits are left. -/
def wholeDigits (word : UInt16) (bits : Nat) : Guarded (List Char × Nat) :=
  if 5 ≤ bits then do
    let ⟨rest, _⟩ ← minus bits 5
    let shifted ← shiftRight word rest
    let first ← index alphabet.toList (shifted &&& 0x1F).toNat
    let (others, left) ← wholeDigits word rest
    return (first :: others, left)
  else .ok ([], bits)
termination_by bits

/-- One byte comes in and every whole digit goes out. -/
def byteIn (r : Register) (b : UInt8) : Guarded (List Char × Register) := do
  let word := (← shiftLeft r.buffer 8) ||| b.toUInt16
  let (out, bits) ← wholeDigits word (r.bits + 8)
  return (out, ⟨word &&& (← lowMask bits), bits⟩)

def bytesIn (r : Register) : Bytes → Guarded (List Char × Register)
  | [] => .ok ([], r)
  | b :: rest => do
    let (first, r) ← byteIn r b
    let (others, r) ← bytesIn r rest
    return (first ++ others, r)

/-- The digit for the bits that are left at the end. -/
def lastDigits (r : Register) : Guarded (List Char) :=
  if 0 < r.bits then do
    let ⟨room, _⟩ ← minus 5 r.bits
    let word ← shiftLeft r.buffer room
    return [← index alphabet.toList (word &&& 0x1F).toNat]
  else .ok []

def encode (data : Bytes) : Guarded String := do
  let (out, r) ← bytesIn .empty data
  return String.ofList (out ++ (← lastDigits r))

/-- The entry of a byte that is no character of a digit. -/
def noDigit : UInt8 := 0xFF

/-- The digit of the character of each byte. -/
def table : List UInt8 :=
  (List.range 256).map fun n =>
    match digit? (Char.ofNat n) with
    | some d => UInt8.ofNat d.val
    | none => noDigit

/-- One character comes in and a whole byte, if there is one, goes out. -/
def charIn (r : Register) (c : UInt8) : Guarded (Bytes × Register) := do
  let value ← index table c.toNat
  if value = noDigit then refuse .invalidEncoding
  else
    let word := (← shiftLeft r.buffer 5) ||| value.toUInt16
    if 8 ≤ r.bits + 5 then
      let ⟨rest, _⟩ ← minus (r.bits + 5) 8
      let byte ← narrow (← shiftRight word rest)
      return ([byte], ⟨word &&& (← lowMask rest), rest⟩)
    else return ([], ⟨word &&& (← lowMask (r.bits + 5)), r.bits + 5⟩)

def charsIn (r : Register) : Bytes → Guarded (Bytes × Register)
  | [] => .ok ([], r)
  | c :: rest => do
    let (first, r) ← charIn r c
    let (others, r) ← charsIn r rest
    return (first ++ others, r)

def decode (text : String) : Guarded Bytes := do
  let (data, r) ← charsIn .empty (Text.utf8 text)
  if 5 ≤ r.bits ∨ r.buffer ≠ 0 then refuse .invalidEncoding else return data

end Base32

/-! ### Envelopes, keys and seeds -/

/-- The body of a text. -/
def body (text : String) : Guarded Bytes := do
  let raw ← Base32.decode text
  if raw.length < Envelope.minimumLength then refuse .invalidEncoding
  else
    let ⟨split, _⟩ ← minus raw.length Envelope.checksumLength
    let low ← index raw split
    let high ← index raw (split + 1)
    lift (Checksum.validate (← front raw split) (UInt16.ofNat (leNat [low, high])))
    return raw.take split

/-- The payload of a text that has to carry the role with this byte. -/
def payload (roleByte : UInt8) (text : String) : Guarded Bytes := do
  let expected ← lift (Role.ofByte roleByte)
  let raw ← body text
  if KeyText.claimed expected (← index raw 0) = expected.byte then withoutFirst raw
  else refuse .invalidPrefixByte

/-- The embedded role and the seed material of a text. -/
def seed (text : String) : Guarded (Role × Bytes) := do
  let raw ← body text
  if raw.length < SeedText.headerLength then refuse .invalidSeed
  else
    let high ← index raw 0
    let low ← index raw 1
    if high &&& tagMask ≠ Role.seed.byte then refuse .invalidSeed
    else
      let role ← lift (Role.ofByte (SeedText.embeddedByte high low))
      if ¬role.isPublic then refuse .invalidPrefixByte
      else
        let material ← back raw SeedText.headerLength
        if material.length ≠ SeedText.materialLength then
          refuse (.invalidSeedLength material.length)
        else return (role, material)

/-- The digit of a byte, if it is the character of one. -/
def digitOf (c : UInt8) : Guarded (Option UInt8) := do
  let value ← index Base32.table c.toNat
  return if value = Base32.noDigit then none else some value

/-- The role that a text claims by its first two bytes. -/
def roleOf (text : String) : Guarded (Option Role) :=
  let head := (Text.utf8 text).take 2
  if head.length < 2 then .ok none
  else do
    match ← digitOf (← index head 0) with
    | none => return none
    | some high =>
      match ← digitOf (← index head 1) with
      | none => return none
      | some low => return KeyText.roleOfByte ((high <<< 3) ||| (low >>> 2))

end Guarded

end RoleKey
