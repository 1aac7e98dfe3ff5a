/-!
Byte strings, byte strings of a fixed length, and numbers written least significant byte first.

`Bytes` is the type that the codecs and the signature scheme work on. `Octets n` carries its
length in its type, so that a secret of 32 bytes or a signature of 64 needs no check where it is
used; `Octets.ofBytes?_eq_some_iff` says which byte strings it covers. `leBytes n` writes a number
in `n` bytes and `leNat` reads one.
-/

set_option autoImplicit false
set_option relaxedAutoImplicit false

namespace RoleKey

/-- A byte string. -/
abbrev Bytes := List UInt8

/-- A byte string of exactly `n` bytes. -/
structure Octets (n : Nat) where
  bytes : Bytes
  length_eq : bytes.length = n
deriving DecidableEq

namespace Octets

/-- The bytes as a string of `n`, if that is how many there are. -/
def ofBytes? (n : Nat) (bytes : Bytes) : Option (Octets n) :=
  if h : bytes.length = n then some ⟨bytes, h⟩ else none

@[ext]
theorem ext {n : Nat} {a b : Octets n} (h : a.bytes = b.bytes) : a = b := by
  cases a; cases b; simp_all

theorem ofBytes?_bytes {n : Nat} (a : Octets n) : ofBytes? n a.bytes = some a := by
  simp [ofBytes?, a.length_eq]

theorem ofBytes?_eq_some_iff {n : Nat} {bytes : Bytes} {a : Octets n} :
    ofBytes? n bytes = some a ↔ bytes = a.bytes := by
  unfold ofBytes?
  split
  · simp only [Option.some.injEq]
    exact ⟨fun h => h ▸ rfl, fun h => Octets.ext h⟩
  · rename_i h
    simp only [reduceCtorEq, false_iff]
    intro heq
    exact h (heq ▸ a.length_eq)

/-- The first `m` bytes. -/
def first {m n : Nat} (a : Octets (m + n)) : Octets m :=
  ⟨a.bytes.take m, by rw [List.length_take, a.length_eq]; omega⟩

/-- The last `n` bytes. -/
def last {m n : Nat} (a : Octets (m + n)) : Octets n :=
  ⟨a.bytes.drop m, by rw [List.length_drop, a.length_eq]; omega⟩

/-- One byte string after the other. -/
def append {m n : Nat} (a : Octets m) (b : Octets n) : Octets (m + n) :=
  ⟨a.bytes ++ b.bytes, by rw [List.length_append, a.length_eq, b.length_eq]⟩

theorem first_append {m n : Nat} (a : Octets m) (b : Octets n) : (a.append b).first = a :=
  Octets.ext (by simp [first, append, a.length_eq])

theorem last_append {m n : Nat} (a : Octets m) (b : Octets n) : (a.append b).last = b :=
  Octets.ext (by simp [last, append, a.length_eq])

theorem append_first_last {m n : Nat} (a : Octets (m + n)) : a.first.append a.last = a :=
  Octets.ext (List.take_append_drop m a.bytes)

end Octets

/-! ### Numbers, least significant byte first -/

/-- The number that the bytes spell, the first one being the least significant. -/
def leNat : Bytes → Nat
  | [] => 0
  | b :: rest => b.toNat + 256 * leNat rest

/-- The `n` low bytes of a number, least significant first. -/
def leBytes : Nat → Nat → Bytes
  | 0, _ => []
  | n + 1, value => UInt8.ofNat value :: leBytes n (value / 256)

@[simp]
theorem length_leBytes (n value : Nat) : (leBytes n value).length = n := by
  induction n generalizing value with
  | zero => rfl
  | succ n ih => simp [leBytes, ih]

/-- A number below `256 ^ n` in `n` bytes, with their count. -/
def leOctets (n value : Nat) : Octets n := ⟨leBytes n value, length_leBytes n value⟩

end RoleKey
