import Mathlib.Data.Nat.Prime.Basic
import Mathlib.Dynamics.PeriodicPts.Lemmas
import Mathlib.Tactic.NormNum.Prime
import RoleKey.Proofs.ChecksumRegister

/-!
How many bits are set in a codeword, a bit string that the division leaves nothing of.

The generator has an even count of terms. So a step keeps the parity of the register
(`parity_stepBit`), a bit that comes in adds its own (`parity_feedBits`), and a codeword of any
length has an even count of bits set (`even_count_of_codeword`).

A bit that comes in and `n` bits behind it leave the power `x ^ (n + 16)` (`feedBits_true_cons`), so
two bits alone make a codeword only where two powers are the same. The powers return to one after
32767 steps and not before (`minimalPeriod_stepBit`): they are multiplied as remainders
(`power_add`), so that the few powers which the prime factors of 32767 ask for are taken by
squaring. So no codeword of up to 32767 bits has exactly two bits set (`count_ne_two_of_codeword`).
-/

set_option autoImplicit false
set_option relaxedAutoImplicit false

namespace RoleKey

/-! ### Bits that are set -/

/-- Whether an odd count of bits is set. -/
def parity : List Bool → Bool
  | [] => false
  | bit :: rest => xor bit (parity rest)

theorem parity_append (front back : List Bool) :
    parity (front ++ back) = xor (parity front) (parity back) := by
  induction front with
  | nil => exact (Bool.false_xor _).symm
  | cons bit rest ih => rw [List.cons_append, parity, parity, ih, Bool.xor_assoc]

theorem parity_zipWith_xor {first second : List Bool} (hlength : first.length = second.length) :
    parity (List.zipWith xor first second) = xor (parity first) (parity second) := by
  induction first generalizing second with
  | nil => rw [List.eq_nil_of_length_eq_zero hlength.symm]; rfl
  | cons bit rest ih =>
    cases second with
    | nil => simp at hlength
    | cons other others =>
      rw [List.zipWith_cons_cons, parity, parity, parity, ih (by simpa using hlength),
        Bool.xor_assoc, Bool.xor_assoc, Bool.xor_left_comm other]

theorem even_count_iff_parity {bits : List Bool} :
    Even (bits.count true) ↔ parity bits = false := by
  induction bits with
  | nil => simp [parity]
  | cons bit rest ih =>
    cases bit with
    | false => rw [List.count_cons_of_ne (by decide), parity, Bool.false_xor, ih]
    | true =>
      rw [List.count_cons_self, Nat.even_add_one, ih, parity, Bool.true_xor]
      cases parity rest <;> decide

/-- Doubling a number puts a zero behind its bits. -/
theorem bitsOf_mul_two (width value : ℕ) :
    bitsOf (width + 1) (value * 2) = bitsOf width value ++ [false] := by
  have hsplit := bitsOf_mul_add width 1 value (Nat.two_pow_pos 1)
  rwa [Nat.add_zero (value * 2 ^ 1), Nat.pow_one] at hsplit

namespace Checksum

/-! ### Parity -/

/-- The bits of a register. -/
def registerBits (r : UInt16) : List Bool := bitsOf 16 r.toNat

theorem parity_registerBits_xor (r s : UInt16) :
    parity (registerBits (r ^^^ s)) = xor (parity (registerBits r)) (parity (registerBits s)) := by
  rw [registerBits, UInt16.toNat_xor, bitsOf_xor, parity_zipWith_xor (by simp)]
  rfl

/-- Moving the register up drops its top bit and puts a zero behind the others. -/
theorem registerBits_shiftLeft_one (r : UInt16) :
    registerBits (r <<< 1) = bitsOf 15 r.toNat ++ [false] := by
  rw [registerBits, toNat_shiftLeft_one, bitsOf_mod (Nat.le_refl 16), bitsOf_mul_two]

theorem parity_shiftLeft_one (r : UInt16) :
    parity (registerBits (r <<< 1)) = parity (bitsOf 15 r.toNat) := by
  rw [registerBits_shiftLeft_one, parity_append]
  exact Bool.xor_false _

/-- One step keeps the parity: where a bit falls out at the top, the generator puts in three. -/
theorem parity_stepBit (r : UInt16) :
    parity (registerBits (stepBit r)) = parity (registerBits r) := by
  have htop : parity (registerBits r) = xor (r.toNat.testBit 15) (parity (bitsOf 15 r.toNat)) :=
    rfl
  rw [stepBit_eq, parity_registerBits_xor, parity_shiftLeft_one, htop, Bool.xor_comm]
  cases r.toNat.testBit 15 <;> rfl

theorem parity_topBit (bit : Bool) : parity (registerBits (topBit bit)) = bit := by
  cases bit <;> decide

/-- Every bit that comes in adds its own parity to that of the register. -/
theorem parity_feedBits (r : UInt16) (bits : List Bool) :
    parity (registerBits (feedBits r bits)) = xor (parity (registerBits r)) (parity bits) := by
  induction bits generalizing r with
  | nil => exact (Bool.xor_false _).symm
  | cons bit rest ih =>
    rw [feedBits_cons, ih, parity_stepBit, parity_registerBits_xor, parity_topBit, parity,
      Bool.xor_assoc]

/-- A bit string that the division leaves nothing of. -/
def IsCodeword (bits : List Bool) : Prop := feedBits 0 bits = 0

/-- A codeword has an even count of bits set. -/
theorem even_count_of_codeword {bits : List Bool} (h : IsCodeword bits) :
    Even (bits.count true) := by
  have hparity := parity_feedBits 0 bits
  rw [h] at hparity
  rw [even_count_iff_parity]
  exact (Bool.false_xor _).symm.trans hparity.symm

/-! ### Powers -/

/-- The power `x ^ n` as a remainder: what `n` steps make of one. -/
def power (n : ℕ) : UInt16 := stepBits n 1

theorem stepBits_eq_iterate (n : ℕ) : stepBits n = stepBit^[n] := by
  induction n with
  | zero => rfl
  | succ n ih =>
    funext r
    rw [stepBits, ih, Function.iterate_succ_apply]

theorem stepBits_add (m n : ℕ) (r : UInt16) :
    stepBits (m + n) r = stepBits m (stepBits n r) := by
  simp only [stepBits_eq_iterate, Function.iterate_add_apply]

theorem stepBits_comm (m n : ℕ) (r : UInt16) :
    stepBits m (stepBits n r) = stepBits n (stepBits m r) := by
  rw [← stepBits_add, ← stepBits_add, Nat.add_comm]

/-- The sum, over the places below `k` where the first register has a bit set, of as many steps of
the second as the place counts. -/
def productBelow (r s : UInt16) : ℕ → UInt16
  | 0 => 0
  | k + 1 => productBelow r s k ^^^ (if r.toNat.testBit k then stepBits k s else 0)

/-- The product of two registers as a remainder. -/
def product (r s : UInt16) : UInt16 := productBelow r s 16

theorem stepBits_productBelow (n : ℕ) (r s : UInt16) (k : ℕ) :
    stepBits n (productBelow r s k) = productBelow r (stepBits n s) k := by
  have hzero : stepBits n 0 = 0 := stepBits_eq_zero_iff.mpr rfl
  induction k with
  | zero => exact hzero
  | succ k ih =>
    rw [productBelow, productBelow, stepBits_xor, ih, apply_ite (stepBits n), hzero,
      stepBits_comm n k]

theorem toNat_power_of_lt {k : ℕ} (hk : k < 16) : (power k).toNat = 2 ^ k := by
  have hone : (1 : UInt16).toNat < 2 ^ (16 - k) := Nat.one_lt_two_pow (by omega)
  rw [power, toNat_stepBits_of_lt (Nat.le_of_lt hk) hone]
  exact Nat.one_mul _

theorem toNat_productBelow_one (r : UInt16) {k : ℕ} (hk : k ≤ 16) :
    (productBelow r 1 k).toNat = r.toNat % 2 ^ k := by
  induction k with
  | zero => exact (Nat.mod_one _).symm
  | succ k ih =>
    have hterm : (if r.toNat.testBit k then stepBits k 1 else 0).toNat =
        r.toNat / 2 ^ k % 2 * 2 ^ k := by
      rw [apply_ite UInt16.toNat, ← Nat.toNat_testBit]
      cases r.toNat.testBit k with
      | false => exact (Nat.zero_mul _).symm
      | true => exact (toNat_power_of_lt hk).trans (Nat.one_mul _).symm
    rw [productBelow, UInt16.toNat_xor, ih (Nat.le_of_lt hk), hterm, Nat.xor_comm,
      ← mul_two_pow_add_eq_xor _ (Nat.mod_lt _ (Nat.two_pow_pos k)), Nat.mod_pow_succ,
      Nat.mul_comm, Nat.add_comm]

/-- A register is the sum of the powers of its bits. -/
theorem product_one (r : UInt16) : product r 1 = r := by
  apply UInt16.toNat_inj.mp
  rw [product, toNat_productBelow_one r (Nat.le_refl 16), Nat.mod_eq_of_lt r.toNat_lt]

/-- Steps multiply by a power. -/
theorem product_power (r : UInt16) (n : ℕ) : product r (power n) = stepBits n r := by
  rw [power, product, ← stepBits_productBelow]
  exact congrArg (stepBits n) (product_one r)

theorem power_add (m n : ℕ) : power (m + n) = product (power m) (power n) := by
  rw [product_power, power, power, Nat.add_comm, stepBits_add]

/-- A register raised to the exponent that bits spell behind the one that it stands for, by squaring
and stepping. -/
def raised : List Bool → UInt16 → UInt16
  | [], r => r
  | bit :: rest, r => raised rest (if bit then stepBit (product r r) else product r r)

theorem raised_power (bits : List Bool) (n : ℕ) :
    raised bits (power n) = power (n * 2 ^ bits.length + valueOf bits) := by
  induction bits generalizing n with
  | nil => rw [raised, valueOf, List.length_nil, Nat.pow_zero, Nat.mul_one, Nat.add_zero]
  | cons bit rest ih =>
    have hstep : (if bit then stepBit (product (power n) (power n)) else
        product (power n) (power n)) = power (2 * n + bit.toNat) := by
      rw [← power_add, ← Nat.two_mul]
      cases bit with
      | false => rfl
      | true => exact (stepBits_add 1 (2 * n) 1).symm.trans (by rw [Nat.add_comm]; rfl)
    rw [raised, hstep, ih, valueOf, List.length_cons]
    congr 1
    ring

/-- A power is taken from the bits of its exponent. -/
theorem power_eq_raised {width n : ℕ} (hn : n < 2 ^ width) :
    power n = raised (bitsOf width n) 1 := by
  have hraised := raised_power (bitsOf width n) 0
  rw [Nat.zero_mul, Nat.zero_add, valueOf_bitsOf, Nat.mod_eq_of_lt hn] at hraised
  exact hraised.symm

/-! ### The period of the powers -/

theorem power_32767 : power 32767 = 1 := by
  rw [power_eq_raised (by decide : 32767 < 2 ^ 15)]
  decide +kernel

/-- None of the largest proper divisors of 32767 is a period. -/
theorem power_ne_one_of_mem : ∀ n ∈ [217, 1057, 4681], power n ≠ 1 := by
  have hraised : ∀ n ∈ [217, 1057, 4681], n < 2 ^ 13 ∧ raised (bitsOf 13 n) 1 ≠ 1 := by
    decide +kernel
  intro n hn
  obtain ⟨hlt, hne⟩ := hraised n hn
  rwa [power_eq_raised hlt]

/-- The powers return to one after 32767 steps and not before. -/
theorem minimalPeriod_stepBit : Function.minimalPeriod stepBit 1 = 32767 := by
  have hperiodic (n : ℕ) : Function.IsPeriodicPt stepBit n 1 ↔ power n = 1 := by
    rw [power, stepBits_eq_iterate]
    rfl
  obtain ⟨cofactor, hcofactor⟩ := ((hperiodic 32767).mpr power_32767).minimalPeriod_dvd
  by_contra hne
  -- Otherwise a prime factor may be taken off, and one of the largest proper divisors is a period.
  have hcofactor_ne : cofactor ≠ 1 := by
    rintro rfl
    exact hne (by rw [hcofactor, Nat.mul_one])
  obtain ⟨p, hp, rest, rfl⟩ := Nat.exists_prime_and_dvd hcofactor_ne
  have hfactor : p ∣ 7 * 31 * 151 := ⟨Function.minimalPeriod stepBit 1 * rest, by
    rw [Nat.mul_left_comm, ← hcofactor]⟩
  have hdivisor : Function.IsPeriodicPt stepBit (Function.minimalPeriod stepBit 1 * rest) 1 :=
    (Function.isPeriodicPt_minimalPeriod stepBit 1).mul_const rest
  have hproduct : p * (Function.minimalPeriod stepBit 1 * rest) = 32767 := by
    rw [Nat.mul_left_comm, ← hcofactor]
  have hmem : Function.minimalPeriod stepBit 1 * rest ∈ [217, 1057, 4681] := by
    rw [hp.dvd_mul, hp.dvd_mul, Nat.prime_dvd_prime_iff_eq hp (by norm_num),
      Nat.prime_dvd_prime_iff_eq hp (by norm_num), Nat.prime_dvd_prime_iff_eq hp (by norm_num)]
      at hfactor
    simp only [List.mem_cons, List.not_mem_nil, or_false]
    rcases hfactor with (rfl | rfl) | rfl <;> omega
  exact power_ne_one_of_mem _ hmem ((hperiodic _).mp hdivisor)

/-- Two powers fewer than 32767 steps apart differ. -/
theorem power_add_ne (n : ℕ) {distance : ℕ} (hpos : 0 < distance) (hlt : distance < 32767) :
    power (n + distance) ≠ power n := by
  intro h
  rw [power, power, stepBits_add] at h
  have hperiodic : Function.IsPeriodicPt stepBit distance 1 := by
    rw [Function.IsPeriodicPt, ← stepBits_eq_iterate]
    exact stepBits_injective n h
  have hle := Nat.le_of_dvd hpos hperiodic.minimalPeriod_dvd
  rw [minimalPeriod_stepBit] at hle
  omega

/-! ### Two bits -/

theorem feedBits_eq_stepBits_xor (r : UInt16) (bits : List Bool) :
    feedBits r bits = stepBits bits.length r ^^^ feedBits 0 bits := by
  induction bits generalizing r with
  | nil => exact (UInt16.xor_zero).symm
  | cons bit rest ih =>
    rw [feedBits_cons, feedBits_cons, ih, ih (stepBit (0 ^^^ topBit bit)), UInt16.zero_xor,
      stepBit_xor, stepBits_xor, List.length_cons, stepBits, UInt16.xor_assoc]

/-- A bit that comes in leaves the power of its place, counted from the end of the checksum. -/
theorem feedBits_true_cons (rest : List Bool) :
    feedBits 0 (true :: rest) = power (rest.length + 16) ^^^ feedBits 0 rest := by
  have htop : stepBit (0 ^^^ topBit true) = stepBits 16 1 := by decide +kernel
  rw [feedBits_cons, htop, feedBits_eq_stepBits_xor, power, stepBits_add]

/-- A codeword of up to 32767 bits has not exactly two bits set. -/
theorem count_ne_two_of_codeword {bits : List Bool} (h : IsCodeword bits)
    (hlength : bits.length ≤ 32767) : bits.count true ≠ 2 := by
  intro hcount
  obtain ⟨zeros, rest, rfl, hrest⟩ := exists_first_true hcount
  obtain ⟨between, behind, rfl, hbehind⟩ := exists_first_true hrest
  have hnone : feedBits 0 behind = 0 := by
    rw [eq_replicate_false (List.count_eq_zero.mp hbehind), ← List.append_nil (List.replicate _ _)]
    exact feedBits_zero_replicate _ []
  rw [IsCodeword, feedBits_zero_replicate, feedBits_true_cons, feedBits_zero_replicate,
    feedBits_true_cons, hnone, UInt16.xor_zero, UInt16.xor_eq_zero_iff] at h
  simp only [List.length_append, List.length_cons, List.length_replicate] at h hlength
  have hplaces : between + (behind.length + 1) + 16 = behind.length + 16 + (between + 1) := by omega
  rw [hplaces] at h
  exact power_add_ne _ (by omega) (by omega) h

end Checksum

end RoleKey
