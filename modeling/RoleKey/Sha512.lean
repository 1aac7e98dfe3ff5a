import RoleKey.Octets

/-!
The hash SHA-512.

A message is padded to whole blocks of 128 bytes (`padded`), each block gives a schedule of eighty
words (`schedule`), and `compress` runs the eighty rounds over the chaining value. Words are 64 bits
wide and come most significant byte first.
-/

set_option autoImplicit false
set_option relaxedAutoImplicit false

namespace RoleKey.Sha512

/-! ### Constants -/

/-- The round constants: the first 64 bits of the fractional parts of the cube roots of the first
eighty primes. -/
def roundConstants : List UInt64 := [
    0x428a2f98d728ae22, 0x7137449123ef65cd, 0xb5c0fbcfec4d3b2f, 0xe9b5dba58189dbbc,
    0x3956c25bf348b538, 0x59f111f1b605d019, 0x923f82a4af194f9b, 0xab1c5ed5da6d8118,
    0xd807aa98a3030242, 0x12835b0145706fbe, 0x243185be4ee4b28c, 0x550c7dc3d5ffb4e2,
    0x72be5d74f27b896f, 0x80deb1fe3b1696b1, 0x9bdc06a725c71235, 0xc19bf174cf692694,
    0xe49b69c19ef14ad2, 0xefbe4786384f25e3, 0x0fc19dc68b8cd5b5, 0x240ca1cc77ac9c65,
    0x2de92c6f592b0275, 0x4a7484aa6ea6e483, 0x5cb0a9dcbd41fbd4, 0x76f988da831153b5,
    0x983e5152ee66dfab, 0xa831c66d2db43210, 0xb00327c898fb213f, 0xbf597fc7beef0ee4,
    0xc6e00bf33da88fc2, 0xd5a79147930aa725, 0x06ca6351e003826f, 0x142929670a0e6e70,
    0x27b70a8546d22ffc, 0x2e1b21385c26c926, 0x4d2c6dfc5ac42aed, 0x53380d139d95b3df,
    0x650a73548baf63de, 0x766a0abb3c77b2a8, 0x81c2c92e47edaee6, 0x92722c851482353b,
    0xa2bfe8a14cf10364, 0xa81a664bbc423001, 0xc24b8b70d0f89791, 0xc76c51a30654be30,
    0xd192e819d6ef5218, 0xd69906245565a910, 0xf40e35855771202a, 0x106aa07032bbd1b8,
    0x19a4c116b8d2d0c8, 0x1e376c085141ab53, 0x2748774cdf8eeb99, 0x34b0bcb5e19b48a8,
    0x391c0cb3c5c95a63, 0x4ed8aa4ae3418acb, 0x5b9cca4f7763e373, 0x682e6ff3d6b2b8a3,
    0x748f82ee5defb2fc, 0x78a5636f43172f60, 0x84c87814a1f0ab72, 0x8cc702081a6439ec,
    0x90befffa23631e28, 0xa4506cebde82bde9, 0xbef9a3f7b2c67915, 0xc67178f2e372532b,
    0xca273eceea26619c, 0xd186b8c721c0c207, 0xeada7dd6cde0eb1e, 0xf57d4f7fee6ed178,
    0x06f067aa72176fba, 0x0a637dc5a2c898a6, 0x113f9804bef90dae, 0x1b710b35131c471b,
    0x28db77f523047d84, 0x32caab7b40c72493, 0x3c9ebe0a15c9bebc, 0x431d67c49c100d4c,
    0x4cc5d4becb3e42b6, 0x597f299cfc657e2a, 0x5fcb6fab3ad6faec, 0x6c44198c4a475817]

/-- A chaining value, or the working variables of a round. -/
structure Chain where
  a : UInt64
  b : UInt64
  c : UInt64
  d : UInt64
  e : UInt64
  f : UInt64
  g : UInt64
  h : UInt64

/-- The first chaining value: the first 64 bits of the fractional parts of the square roots of the
first eight primes. -/
def initial : Chain :=
  ⟨0x6a09e667f3bcc908, 0xbb67ae8584caa73b, 0x3c6ef372fe94f82b, 0xa54ff53a5f1d36f1,
    0x510e527fade682d1, 0x9b05688c2b3e6c1f, 0x1f83d9abfb41bd6b, 0x5be0cd19137e2179⟩

/-! ### Words and padding -/

/-- The word that bytes spell, most significant first. -/
def word (bytes : Bytes) : UInt64 :=
  bytes.foldl (fun w b => (w <<< 8) ||| b.toUInt64) 0

/-- The `n` low bytes of a number, most significant first. -/
def beBytes (n value : Nat) : Bytes := (leBytes n value).reverse

/-- The message with a set bit, as many clear bits as whole blocks need, and its length in
bits. -/
def padded (message : Bytes) : Bytes :=
  message ++ 0x80 :: List.replicate ((239 - message.length % 128) % 128) 0 ++
    beBytes 16 (8 * message.length)

/-- The consecutive pieces of a list, `n + 1` elements each, the last one perhaps shorter. -/
def pieces {α : Type} (n : Nat) (xs : List α) : List (List α) :=
  match xs with
  | [] => []
  | x :: rest => (x :: rest.take n) :: pieces n (rest.drop n)
termination_by xs.length
decreasing_by simp only [List.length_drop, List.length_cons]; omega

/-! ### The compression function -/

/-- A word turned right by `n` places. -/
def rotate (w : UInt64) (n : UInt64) : UInt64 := (w >>> n) ||| (w <<< (64 - n))

/-- Mixes an earlier word into the schedule. -/
def smallSigma₀ (w : UInt64) : UInt64 := rotate w 1 ^^^ rotate w 8 ^^^ (w >>> 7)

/-- Mixes a recent word into the schedule. -/
def smallSigma₁ (w : UInt64) : UInt64 := rotate w 19 ^^^ rotate w 61 ^^^ (w >>> 6)

/-- Mixes the first working variable. -/
def bigSigma₀ (w : UInt64) : UInt64 := rotate w 28 ^^^ rotate w 34 ^^^ rotate w 39

/-- Mixes the fifth working variable. -/
def bigSigma₁ (w : UInt64) : UInt64 := rotate w 14 ^^^ rotate w 18 ^^^ rotate w 41

/-- Bits of `y` where `x` is set and of `z` elsewhere. -/
def choose (x y z : UInt64) : UInt64 := (x &&& y) ^^^ (~~~x &&& z)

/-- The bit that two of three words agree on. -/
def majority (x y z : UInt64) : UInt64 := (x &&& y) ^^^ (x &&& z) ^^^ (y &&& z)

/-- One more word of the schedule, from those before it. -/
def extend (words : Array UInt64) : Array UInt64 :=
  let back (n : Nat) : UInt64 := words.getD (words.size - n) 0
  words.push (smallSigma₁ (back 2) + back 7 + smallSigma₀ (back 15) + back 16)

/-- The eighty words of a block. -/
def schedule (block : Bytes) : Array UInt64 :=
  (List.range 64).foldl (fun words _ => extend words) ((pieces 7 block).map word).toArray

/-- One round, with its constant and its word of the schedule. -/
def round (v : Chain) (constant scheduled : UInt64) : Chain :=
  let first := v.h + bigSigma₁ v.e + choose v.e v.f v.g + constant + scheduled
  let second := bigSigma₀ v.a + majority v.a v.b v.c
  ⟨first + second, v.a, v.b, v.c, v.d + first, v.e, v.f, v.g⟩

/-- The chaining value after one more block. -/
def compress (chain : Chain) (block : Bytes) : Chain :=
  let v := (roundConstants.zip (schedule block).toList).foldl (fun v kw => round v kw.1 kw.2) chain
  ⟨chain.a + v.a, chain.b + v.b, chain.c + v.c, chain.d + v.d,
    chain.e + v.e, chain.f + v.f, chain.g + v.g, chain.h + v.h⟩

/-- The bytes of a chaining value. -/
def Chain.bytes (v : Chain) : Bytes :=
  [v.a, v.b, v.c, v.d, v.e, v.f, v.g, v.h].flatMap fun w => beBytes 8 w.toNat

/-- The hash of a message. -/
def hash (message : Bytes) : Bytes :=
  ((pieces 127 (padded message)).foldl compress initial).bytes

@[simp]
theorem length_hash (message : Bytes) : (hash message).length = 64 := by
  simp [hash, Chain.bytes, beBytes]

end RoleKey.Sha512
