import Mathlib.Data.Nat.Bitwise
import Mathlib.Tactic.Ring
import RoleKey.Base32

/-!
Bit strings, most significant bit first, of a number, of a byte string and of a digit string.

`bitsOf width value` reads off the lowest `width` bits of a number, and `valueOf` adds them up
again; the two are inverse below `2 ^ width` (`valueOf_bitsOf`, `bitsOf_valueOf`). A number is cut
into a high and a low part by cutting its bits (`bitsOf_add`). `blockBits` writes a list of symbols
as blocks of one width, and `blockBits_injective` says that nothing is lost by it. Bytes and digits
in base 32 are blocks of eight and of five.
-/

set_option autoImplicit false
set_option relaxedAutoImplicit false

namespace RoleKey

/-! ### Numbers -/

/-- The lowest `width` bits of a number, most significant first. -/
def bitsOf : ℕ → ℕ → List Bool
  | 0, _ => []
  | width + 1, value => value.testBit width :: bitsOf width value

/-- The number that a bit string spells. -/
def valueOf : List Bool → ℕ
  | [] => 0
  | bit :: rest => bit.toNat * 2 ^ rest.length + valueOf rest

@[simp] theorem length_bitsOf (width value : ℕ) : (bitsOf width value).length = width := by
  induction width with
  | zero => rfl
  | succ width ih => simp [bitsOf, ih]

/-- The bits of a number are those of its high part and then those of its low part. -/
theorem bitsOf_add (high low value : ℕ) :
    bitsOf (high + low) value = bitsOf high (value / 2 ^ low) ++ bitsOf low value := by
  induction high with
  | zero => simp [bitsOf]
  | succ high ih =>
    rw [Nat.succ_add]
    simp only [bitsOf, List.cons_append, ih, Nat.testBit_div_two_pow]

/-- Bits beyond the width do not count. -/
theorem bitsOf_mod {width bound : ℕ} (h : width ≤ bound) (value : ℕ) :
    bitsOf width (value % 2 ^ bound) = bitsOf width value := by
  induction width with
  | zero => rfl
  | succ width ih =>
    have hlt : width < bound := h
    simp only [bitsOf, ih (Nat.le_of_lt hlt), Nat.testBit_mod_two_pow, hlt, decide_true,
      Bool.true_and]

/-- A number put above `low` bits of another has the bits of both, one after the other. -/
theorem bitsOf_mul_add (high low : ℕ) (top : ℕ) {rest : ℕ} (hrest : rest < 2 ^ low) :
    bitsOf (high + low) (top * 2 ^ low + rest) = bitsOf high top ++ bitsOf low rest := by
  have hdiv : (top * 2 ^ low + rest) / 2 ^ low = top := by
    rw [Nat.add_comm, Nat.add_mul_div_right _ _ (Nat.two_pow_pos low), Nat.div_eq_of_lt hrest,
      Nat.zero_add]
  have hmod : (top * 2 ^ low + rest) % 2 ^ low = rest := by
    rw [Nat.add_comm, Nat.add_mul_mod_self_right, Nat.mod_eq_of_lt hrest]
  rw [bitsOf_add, hdiv, ← bitsOf_mod (Nat.le_refl low) (top * 2 ^ low + rest), hmod]

@[simp] theorem bitsOf_zero (width : ℕ) : bitsOf width 0 = List.replicate width false := by
  induction width with
  | zero => rfl
  | succ width ih => simp [bitsOf, ih, List.replicate_succ]

/-- A bit string with no bit set is all zeros. -/
theorem eq_replicate_false {bits : List Bool} (h : true ∉ bits) :
    bits = List.replicate bits.length false := by
  refine List.eq_replicate_iff.mpr ⟨rfl, fun bit hbit ↦ ?_⟩
  cases bit with
  | false => rfl
  | true => exact absurd hbit h

/-- A bit string with a bit set begins with zeros up to the first such bit. -/
theorem exists_first_true {bits : List Bool} {n : ℕ} (h : bits.count true = n + 1) :
    ∃ zeros rest, bits = List.replicate zeros false ++ true :: rest ∧ rest.count true = n := by
  induction bits with
  | nil => simp at h
  | cons bit rest ih =>
    cases bit with
    | false =>
      rw [List.count_cons_of_ne (by decide)] at h
      obtain ⟨zeros, others, rfl, hcount⟩ := ih h
      exact ⟨zeros + 1, others, rfl, hcount⟩
    | true =>
      rw [List.count_cons_self, Nat.add_right_cancel_iff] at h
      exact ⟨0, rest, rfl, h⟩

theorem valueOf_bitsOf (width value : ℕ) : valueOf (bitsOf width value) = value % 2 ^ width := by
  induction width with
  | zero => simp [bitsOf, valueOf, Nat.mod_one]
  | succ width ih =>
    rw [bitsOf, valueOf, ih, length_bitsOf, Nat.toNat_testBit, Nat.mod_pow_succ]
    ring

theorem valueOf_lt (bits : List Bool) : valueOf bits < 2 ^ bits.length := by
  induction bits with
  | nil => simp [valueOf]
  | cons bit rest ih =>
    have hbit : bit.toNat * 2 ^ rest.length ≤ 1 * 2 ^ rest.length :=
      Nat.mul_le_mul_right _ (Bool.toNat_le bit)
    rw [valueOf, List.length_cons, Nat.pow_succ]
    omega

theorem bitsOf_valueOf (bits : List Bool) : bitsOf bits.length (valueOf bits) = bits := by
  induction bits with
  | nil => rfl
  | cons bit rest ih =>
    have hsplit := bitsOf_mul_add 1 rest.length bit.toNat (valueOf_lt rest)
    rw [List.length_cons, Nat.add_comm, valueOf, hsplit, ih]
    cases bit <;> rfl

/-- Two numbers have the same bits exactly if they agree below the width. -/
theorem bitsOf_eq_iff {width a b : ℕ} :
    bitsOf width a = bitsOf width b ↔ a % 2 ^ width = b % 2 ^ width := by
  constructor
  · intro h
    rw [← valueOf_bitsOf, ← valueOf_bitsOf, h]
  · intro h
    rw [← bitsOf_mod (Nat.le_refl width) a, h, bitsOf_mod (Nat.le_refl width)]

/-! ### Exclusive or -/

theorem bitsOf_xor (width a b : ℕ) :
    bitsOf width (a ^^^ b) = List.zipWith xor (bitsOf width a) (bitsOf width b) := by
  induction width with
  | zero => rfl
  | succ width ih => rw [bitsOf, bitsOf, bitsOf, List.zipWith_cons_cons, Nat.testBit_xor, ih]

/-- Bit strings of one length are equal exactly if their exclusive or has no bit set. -/
theorem zipWith_xor_eq_replicate_iff {first second : List Bool}
    (hlength : first.length = second.length) :
    List.zipWith xor first second = List.replicate first.length false ↔ first = second := by
  induction first generalizing second with
  | nil => simp [List.eq_nil_of_length_eq_zero hlength.symm]
  | cons bit rest ih =>
    cases second with
    | nil => simp at hlength
    | cons other others =>
      have hbit : xor bit other = false ↔ bit = other := by cases bit <;> cases other <;> decide
      rw [List.zipWith_cons_cons, List.length_cons, List.replicate_succ, List.cons.injEq,
        List.cons.injEq, hbit, ih (by simpa using hlength)]

/-! ### Blocks -/

section Blocks

variable {α : Type}

/-- The bits of a list of symbols, a block of `width` bits for each. -/
def blockBits (width : ℕ) (value : α → ℕ) (symbols : List α) : List Bool :=
  symbols.flatMap fun symbol ↦ bitsOf width (value symbol)

@[simp] theorem blockBits_nil (width : ℕ) (value : α → ℕ) : blockBits width value [] = [] := rfl

@[simp] theorem blockBits_cons (width : ℕ) (value : α → ℕ) (symbol : α) (rest : List α) :
    blockBits width value (symbol :: rest) =
      bitsOf width (value symbol) ++ blockBits width value rest := rfl

@[simp] theorem blockBits_append (width : ℕ) (value : α → ℕ) (front back : List α) :
    blockBits width value (front ++ back) =
      blockBits width value front ++ blockBits width value back :=
  List.flatMap_append

@[simp] theorem length_blockBits (width : ℕ) (value : α → ℕ) (symbols : List α) :
    (blockBits width value symbols).length = width * symbols.length := by
  induction symbols with
  | nil => rfl
  | cons symbol rest ih =>
    rw [blockBits_cons, List.length_append, length_bitsOf, ih, List.length_cons]
    ring

/-- Symbols that the width suffices to tell apart are determined by their blocks. -/
theorem blockBits_injective {width : ℕ} {value : α → ℕ} (hwidth : 0 < width)
    (hlt : ∀ symbol, value symbol < 2 ^ width) (hinj : Function.Injective value) :
    Function.Injective (blockBits width value) := by
  intro first second h
  have hlength : first.length = second.length := by
    have := congrArg List.length h
    rw [length_blockBits, length_blockBits] at this
    exact Nat.eq_of_mul_eq_mul_left hwidth this
  induction first generalizing second with
  | nil => exact (List.eq_nil_of_length_eq_zero hlength.symm).symm
  | cons symbol rest ih =>
    cases second with
    | nil => simp at hlength
    | cons other others =>
      rw [blockBits_cons, blockBits_cons] at h
      obtain ⟨hhead, htail⟩ := List.append_inj h (by rw [length_bitsOf, length_bitsOf])
      rw [bitsOf_eq_iff, Nat.mod_eq_of_lt (hlt symbol), Nat.mod_eq_of_lt (hlt other)] at hhead
      rw [hinj hhead, ih htail (by simpa using hlength)]

end Blocks

/-- The bits of a byte string. -/
def byteBits (data : Bytes) : List Bool := blockBits 8 UInt8.toNat data

/-- The bits of a digit string. -/
def digitBits (digits : List Base32.Digit) : List Bool := blockBits 5 Fin.val digits

@[simp] theorem byteBits_nil : byteBits [] = [] := rfl

@[simp] theorem digitBits_nil : digitBits [] = [] := rfl

@[simp] theorem byteBits_cons (b : UInt8) (rest : Bytes) :
    byteBits (b :: rest) = bitsOf 8 b.toNat ++ byteBits rest := rfl

@[simp] theorem digitBits_cons (d : Base32.Digit) (rest : List Base32.Digit) :
    digitBits (d :: rest) = bitsOf 5 d.val ++ digitBits rest := rfl

@[simp] theorem byteBits_append (front back : Bytes) :
    byteBits (front ++ back) = byteBits front ++ byteBits back := blockBits_append _ _ front back

@[simp] theorem digitBits_append (front back : List Base32.Digit) :
    digitBits (front ++ back) = digitBits front ++ digitBits back := blockBits_append _ _ front back

@[simp] theorem length_byteBits (data : Bytes) : (byteBits data).length = 8 * data.length :=
  length_blockBits _ _ data

@[simp] theorem length_digitBits (digits : List Base32.Digit) :
    (digitBits digits).length = 5 * digits.length := length_blockBits _ _ digits

/-- Digits that have the bits of bytes and a filler are as many as these bits take. -/
theorem length_of_digitBits_eq {digits : List Base32.Digit} {data : Bytes} {filler : ℕ}
    (h : digitBits digits = byteBits data ++ List.replicate filler false) :
    5 * digits.length = 8 * data.length + filler := by
  have hcount := congrArg List.length h
  rwa [length_digitBits, List.length_append, length_byteBits, List.length_replicate] at hcount

theorem byteBits_injective : Function.Injective byteBits :=
  blockBits_injective (by decide) UInt8.toNat_lt fun _ _ ↦ UInt8.toNat_inj.mp

theorem digitBits_injective : Function.Injective digitBits :=
  blockBits_injective (by decide) Fin.isLt fun _ _ ↦ Fin.ext

end RoleKey
