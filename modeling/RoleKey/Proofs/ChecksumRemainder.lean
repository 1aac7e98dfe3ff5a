import Mathlib.Algebra.CharP.Two
import Mathlib.Algebra.Field.ZMod
import Mathlib.Algebra.Polynomial.Div
import Mathlib.Tactic.LinearCombination
import RoleKey.Proofs.CodewordWeight

/-!
The checksum is the remainder of a division of polynomials over the field of two elements.

`polynomialOf` reads a bit string as a polynomial, the first bit being the coefficient of the
highest power. Exclusive or adds polynomials (`polynomialOf_zipWith_xor`), so that one step of the
register multiplies by `X` and takes off the divisor as often as the top bit says
(`polynomialOf_stepBit`). Over a run the register keeps the remainder of what came in, moved up by
the sixteen places of the checksum (`exists_quotient_feedBits`). Its own polynomial has a degree
below that of the divisor, so it is that remainder and nothing else
(`feedBits_eq_iff_remainder`). `checksum_eq_iff_remainder` says so of the checksum of bytes, and
that it is linear in exclusive or.
-/

set_option autoImplicit false
set_option relaxedAutoImplicit false

namespace RoleKey

/-! ### Exclusive or of bytes -/

theorem byteBits_zipWith_xor {first second : Bytes} (hlength : first.length = second.length) :
    byteBits (List.zipWith (· ^^^ ·) first second) =
      List.zipWith xor (byteBits first) (byteBits second) := by
  induction first generalizing second with
  | nil => rw [List.eq_nil_of_length_eq_zero hlength.symm]; rfl
  | cons b rest ih =>
    cases second with
    | nil => simp at hlength
    | cons other others =>
      rw [List.zipWith_cons_cons, byteBits_cons, byteBits_cons, byteBits_cons,
        ih (by simpa using hlength), UInt8.toNat_xor, bitsOf_xor,
        List.zipWith_append (by simp)]

namespace Checksum

open Polynomial

/-! ### Bit strings as polynomials -/

/-- The polynomial that a bit string spells, the first bit being the coefficient of the highest
power. -/
noncomputable def polynomialOf : List Bool → (ZMod 2)[X]
  | [] => 0
  | bit :: rest => C (bit.toNat : ZMod 2) * X ^ rest.length + polynomialOf rest

/-- The generator with its leading term. -/
noncomputable def divisor : (ZMod 2)[X] := X ^ 16 + X ^ 12 + X ^ 5 + 1

@[simp] theorem polynomialOf_nil : polynomialOf [] = 0 := rfl

@[simp] theorem polynomialOf_cons (bit : Bool) (rest : List Bool) :
    polynomialOf (bit :: rest) =
      C (bit.toNat : ZMod 2) * X ^ rest.length + polynomialOf rest := rfl

theorem polynomialOf_append (front back : List Bool) :
    polynomialOf (front ++ back) = polynomialOf front * X ^ back.length + polynomialOf back := by
  induction front with
  | nil => rw [List.nil_append, polynomialOf_nil, zero_mul, zero_add]
  | cons bit rest ih =>
    rw [List.cons_append, polynomialOf_cons, polynomialOf_cons, ih, List.length_append, pow_add]
    ring

theorem polynomialOf_replicate_false (n : ℕ) : polynomialOf (List.replicate n false) = 0 := by
  induction n with
  | zero => rfl
  | succ n ih => simp [List.replicate_succ, ih]

theorem polynomialOf_zipWith_xor {first second : List Bool}
    (hlength : first.length = second.length) :
    polynomialOf (List.zipWith xor first second) = polynomialOf first + polynomialOf second := by
  induction first generalizing second with
  | nil => rw [List.eq_nil_of_length_eq_zero hlength.symm]; exact (add_zero 0).symm
  | cons bit rest ih =>
    cases second with
    | nil => simp at hlength
    | cons other others =>
      have hrest : rest.length = others.length := by simpa using hlength
      have hbit : ((xor bit other).toNat : ZMod 2) = bit.toNat + other.toNat := by
        cases bit <;> cases other <;> decide
      rw [List.zipWith_cons_cons, polynomialOf_cons, polynomialOf_cons, polynomialOf_cons, ih hrest,
        hbit, C_add, List.length_zipWith, ← hrest, Nat.min_self]
      ring

/-- A bit string spells a polynomial of a degree below its length. -/
theorem degree_polynomialOf_lt (bits : List Bool) :
    (polynomialOf bits).degree < (bits.length : WithBot ℕ) := by
  induction bits with
  | nil =>
    rw [polynomialOf_nil, degree_zero]
    exact WithBot.bot_lt_coe 0
  | cons bit rest ih =>
    have hterm : (C (bit.toNat : ZMod 2) * X ^ rest.length).degree ≤ (rest.length : WithBot ℕ) :=
      degree_C_mul_X_pow_le _ _
    have hlt : (rest.length : WithBot ℕ) < ((bit :: rest).length : WithBot ℕ) := by
      exact_mod_cast Nat.lt_succ_self rest.length
    exact lt_of_le_of_lt (degree_add_le _ _) (max_lt (lt_of_le_of_lt hterm hlt) (ih.trans hlt))

/-- Only zeros spell the zero polynomial. -/
theorem eq_replicate_of_polynomialOf_eq_zero {bits : List Bool} (h : polynomialOf bits = 0) :
    bits = List.replicate bits.length false := by
  induction bits with
  | nil => rfl
  | cons bit rest ih =>
    have htop := congrArg (fun p ↦ coeff p rest.length) h
    simp only [polynomialOf_cons, coeff_add, coeff_C_mul, coeff_X_pow_self, mul_one, coeff_zero,
      coeff_eq_zero_of_degree_lt (degree_polynomialOf_lt rest), add_zero] at htop
    have hbit : bit = false := by
      cases bit with
      | false => rfl
      | true => simp at htop
    subst hbit
    have hrest : polynomialOf rest = 0 := by simpa using h
    rw [List.length_cons, List.replicate_succ, ← ih hrest]

/-- Bit strings of one length that spell the same polynomial are the same. -/
theorem polynomialOf_injective {first second : List Bool} (hlength : first.length = second.length)
    (h : polynomialOf first = polynomialOf second) : first = second := by
  have hsum : polynomialOf (List.zipWith xor first second) = 0 := by
    rw [polynomialOf_zipWith_xor hlength, h, CharTwo.add_self_eq_zero]
  have hzeros := eq_replicate_of_polynomialOf_eq_zero hsum
  rw [List.length_zipWith, ← hlength, Nat.min_self] at hzeros
  exact (zipWith_xor_eq_replicate_iff hlength).mp hzeros

/-! ### The register -/

theorem polynomialOf_registerBits_xor (r s : UInt16) :
    polynomialOf (registerBits (r ^^^ s)) =
      polynomialOf (registerBits r) + polynomialOf (registerBits s) := by
  rw [registerBits, UInt16.toNat_xor, bitsOf_xor, polynomialOf_zipWith_xor (by simp)]
  rfl

theorem polynomialOf_topBit (bit : Bool) :
    polynomialOf (registerBits (topBit bit)) = C (bit.toNat : ZMod 2) * X ^ 15 := by
  have hbits : registerBits (topBit bit) = bit :: List.replicate 15 false := by
    cases bit <;> decide
  rw [hbits, polynomialOf_cons, polynomialOf_replicate_false, List.length_replicate, add_zero]

/-- Moving the register up drops its top bit and multiplies the rest by `X`. -/
theorem polynomialOf_shiftLeft_one (r : UInt16) :
    polynomialOf (registerBits (r <<< 1)) = polynomialOf (bitsOf 15 r.toNat) * X := by
  rw [registerBits_shiftLeft_one, polynomialOf_append]
  simp

theorem polynomialOf_generator :
    polynomialOf (registerBits generator) = X ^ 12 + X ^ 5 + 1 := by
  have hbits : registerBits generator = [false, false, false, true, false, false, false, false,
      false, false, true, false, false, false, false, true] := by decide
  rw [hbits]
  simp [add_assoc]

/-- One step multiplies by `X` and takes the divisor off if a bit falls out at the top. -/
theorem polynomialOf_stepBit (r : UInt16) :
    polynomialOf (registerBits (stepBit r)) =
      polynomialOf (registerBits r) * X + C ((r.toNat.testBit 15).toNat : ZMod 2) * divisor := by
  have hsplit : polynomialOf (registerBits r) =
      C ((r.toNat.testBit 15).toNat : ZMod 2) * X ^ 15 + polynomialOf (bitsOf 15 r.toNat) := by
    rw [registerBits, bitsOf, polynomialOf_cons, length_bitsOf]
  have htaken : polynomialOf (registerBits (if r.toNat.testBit 15 then generator else 0)) =
      C ((r.toNat.testBit 15).toNat : ZMod 2) * (X ^ 12 + X ^ 5 + 1) := by
    cases r.toNat.testBit 15 with
    | false => exact (polynomialOf_replicate_false 16).trans (by simp)
    | true => exact polynomialOf_generator.trans (by simp)
  -- What falls out at the top and the leading term of the divisor cancel.
  have hcancel : C ((r.toNat.testBit 15).toNat : ZMod 2) * X ^ 16 +
      C ((r.toNat.testBit 15).toNat : ZMod 2) * X ^ 16 = 0 := CharTwo.add_self_eq_zero _
  rw [stepBit_eq, polynomialOf_registerBits_xor, polynomialOf_shiftLeft_one, htaken, hsplit,
    divisor]
  linear_combination -hcancel

/-- What has come in, moved up by sixteen places, and what was held before it are the register
behind it and a multiple of the divisor. -/
theorem exists_quotient_feedBits (r : UInt16) (bits : List Bool) :
    ∃ quotient, polynomialOf (registerBits r) * X ^ bits.length + polynomialOf bits * X ^ 16 =
      polynomialOf (registerBits (feedBits r bits)) + divisor * quotient := by
  induction bits generalizing r with
  | nil => exact ⟨0, by simp⟩
  | cons bit rest ih =>
    obtain ⟨quotient, hrest⟩ := ih (stepBit (r ^^^ topBit bit))
    rw [polynomialOf_stepBit, polynomialOf_registerBits_xor, polynomialOf_topBit] at hrest
    -- The multiple that this step takes off moves up with the bits that are still to come.
    refine ⟨quotient - C (((r ^^^ topBit bit).toNat.testBit 15).toNat : ZMod 2) * X ^ rest.length,
      ?_⟩
    rw [feedBits_cons, List.length_cons, polynomialOf_cons]
    linear_combination hrest

/-! ### The remainder -/

theorem degree_lower_lt : (X ^ 12 + X ^ 5 + 1 : (ZMod 2)[X]).degree < (16 : ℕ) := by
  rw [← polynomialOf_generator]
  exact length_bitsOf 16 generator.toNat ▸ degree_polynomialOf_lt (registerBits generator)

theorem divisor_eq : divisor = X ^ 16 + (X ^ 12 + X ^ 5 + 1) := by
  rw [divisor]
  ring

theorem monic_divisor : divisor.Monic := divisor_eq ▸ monic_X_pow_add degree_lower_lt

theorem degree_divisor : divisor.degree = (16 : ℕ) := by
  have hlower : (X ^ 12 + X ^ 5 + 1 : (ZMod 2)[X]).degree < (X ^ 16 : (ZMod 2)[X]).degree := by
    rw [degree_X_pow]
    exact degree_lower_lt
  rw [divisor_eq, degree_add_eq_left_of_degree_lt hlower, degree_X_pow]

/-- From an empty register, the register is the remainder of what has come in. -/
theorem polynomialOf_feedBits (bits : List Bool) :
    polynomialOf (registerBits (feedBits 0 bits)) = (polynomialOf bits * X ^ 16) %ₘ divisor := by
  obtain ⟨quotient, hquotient⟩ := exists_quotient_feedBits 0 bits
  have hempty : polynomialOf (registerBits 0) = 0 := polynomialOf_replicate_false 16
  rw [hempty, zero_mul, zero_add] at hquotient
  have hdegree : (polynomialOf (registerBits (feedBits 0 bits))).degree < divisor.degree := by
    rw [degree_divisor]
    exact length_bitsOf 16 _ ▸ degree_polynomialOf_lt (registerBits _)
  exact (div_modByMonic_unique quotient _ monic_divisor ⟨hquotient.symm, hdegree⟩).2.symm

/-- The remainder of what has come in is spelt by the register, and by no other. -/
theorem feedBits_eq_iff_remainder {bits : List Bool} {r : UInt16} :
    feedBits 0 bits = r ↔
      polynomialOf (registerBits r) = (polynomialOf bits * X ^ 16) %ₘ divisor := by
  rw [← polynomialOf_feedBits]
  constructor
  · rintro rfl
    rfl
  · intro h
    have hbits := polynomialOf_injective (by simp [registerBits]) h
    have hlt := r.toNat_lt
    have hlt' := (feedBits 0 bits).toNat_lt
    rw [registerBits, registerBits, bitsOf_eq_iff, Nat.mod_eq_of_lt hlt, Nat.mod_eq_of_lt hlt']
      at hbits
    exact (UInt16.toNat_inj.mp hbits).symm

/-- The checksum that is taken a byte at a time from the table is the remainder of the data, moved
up by sixteen places, in the division by `X ^ 16 + X ^ 12 + X ^ 5 + 1`, all of them read most
significant bit first. It is what an empty register holds after the bits of the data have come in
one by one. On byte strings of one length it is linear in exclusive or. -/
theorem checksum_eq_iff_remainder (data : Bytes) :
    (∀ r : UInt16, checksum data = r ↔
      polynomialOf (registerBits r) =
        (polynomialOf (byteBits data) * X ^ 16) %ₘ (X ^ 16 + X ^ 12 + X ^ 5 + 1)) ∧
    checksum data = feedBits 0 (byteBits data) ∧
    ∀ other : Bytes, other.length = data.length →
      checksum (List.zipWith (· ^^^ ·) data other) = checksum data ^^^ checksum other := by
  refine ⟨fun r ↦ ?_, checksum_eq_feedBits data, fun other hlength ↦ ?_⟩
  · rw [checksum_eq_feedBits]
    exact feedBits_eq_iff_remainder
  · have hbits : (byteBits data).length = (byteBits other).length := by simp [hlength]
    have hlinear := feedBits_xor hbits 0 0
    rw [UInt16.xor_self] at hlinear
    rw [checksum_eq_feedBits, checksum_eq_feedBits, checksum_eq_feedBits,
      byteBits_zipWith_xor hlength.symm, hlinear]

/-- The digits from one to nine, by which a check of this kind is catalogued. -/
def nineDigits : Bytes := [0x31, 0x32, 0x33, 0x34, 0x35, 0x36, 0x37, 0x38, 0x39]

/-- The catalogued remainder of the nine digits, and what it becomes where the lowest bit of each
digit is turned over. -/
theorem checksum_eq_iff_remainder_nine_digits :
    polynomialOf (registerBits 0x31C3) =
      (polynomialOf (byteBits nineDigits) * X ^ 16) %ₘ (X ^ 16 + X ^ 12 + X ^ 5 + 1) ∧
    (List.replicate 9 (1 : UInt8)).length = nineDigits.length ∧
    checksum (List.zipWith (· ^^^ ·) nineDigits (List.replicate 9 1)) =
      checksum nineDigits ^^^ checksum (List.replicate 9 1) := by
  have hcheck : checksum nineDigits = 0x31C3 := by
    rw [checksum_eq_feedBits]
    decide +kernel
  obtain ⟨hremainder, -, hlinear⟩ := checksum_eq_iff_remainder nineDigits
  exact ⟨(hremainder _).mp hcheck, rfl, hlinear _ rfl⟩

end Checksum

end RoleKey
