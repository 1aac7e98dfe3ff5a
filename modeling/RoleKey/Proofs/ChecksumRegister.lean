import RoleKey.Checksum
import RoleKey.Proofs.BitStrings

/-!
The checksum taken a byte at a time from the table is the one taken a bit at a time.

One step of the division is linear in exclusive or and loses nothing (`stepBit_xor`,
`stepBit_injective`). So eight bits may come in at once, which is what the table does
(`feed_eq_feedBits`), and `checksum_eq_feedBits` reads the checksum of bytes off their bits. Two
consequences carry the detection of errors: registers that differ keep differing under the same
bits (`feedBits_left_injective`), and up to sixteen bits that differ leave registers that differ
(`feedBits_right_injective`). `feedBits_xor` is linearity for bit strings of one length.
-/

set_option autoImplicit false
set_option relaxedAutoImplicit false

namespace RoleKey.Checksum

/-! ### One step of the division -/

theorem and_top_eq_zero_iff (r : UInt16) : r &&& 0x8000 = 0 ↔ r.toNat.testBit 15 = false := by
  rw [← UInt16.toNat_inj, UInt16.toNat_and]
  change r.toNat &&& 2 ^ 15 = 0 ↔ _
  rw [Nat.and_two_pow]
  cases r.toNat.testBit 15 <;> simp

theorem stepBit_eq (r : UInt16) :
    stepBit r = (r <<< 1) ^^^ (if r.toNat.testBit 15 then generator else 0) := by
  unfold stepBit
  simp only [and_top_eq_zero_iff]
  cases r.toNat.testBit 15 <;> simp

theorem xor_xor_cancel (a b c : UInt16) : (a ^^^ c) ^^^ (b ^^^ c) = a ^^^ b := by
  rw [UInt16.xor_comm b c, UInt16.xor_assoc, ← UInt16.xor_assoc c c b, UInt16.xor_self,
    UInt16.zero_xor]

theorem stepBit_xor (a b : UInt16) : stepBit (a ^^^ b) = stepBit a ^^^ stepBit b := by
  rw [stepBit_eq, stepBit_eq, stepBit_eq, UInt16.toNat_xor, Nat.testBit_xor, UInt16.shiftLeft_xor]
  generalize a <<< 1 = shifted
  generalize b <<< 1 = other
  cases a.toNat.testBit 15 <;> cases b.toNat.testBit 15
  · simp
  · simp [UInt16.xor_assoc]
  · simp only [Bool.true_xor, Bool.not_false, if_true, UInt16.xor_zero, Bool.false_eq_true,
      if_false]
    ac_rfl
  · simp [xor_xor_cancel]

/-- Moving the register up doubles it, and what falls out at the top is lost. -/
theorem toNat_shiftLeft_one (r : UInt16) : (r <<< 1).toNat = r.toNat * 2 % 2 ^ 16 := by
  simp [UInt16.toNat_shiftLeft, Nat.shiftLeft_eq]

/-- A step that moves no bit out at the top doubles the register. -/
theorem toNat_stepBit_of_lt {r : UInt16} (h : r.toNat < 2 ^ 15) :
    (stepBit r).toNat = r.toNat * 2 := by
  rw [stepBit_eq, Nat.testBit_lt_two_pow h, if_neg (by decide), UInt16.xor_zero,
    toNat_shiftLeft_one, Nat.mod_eq_of_lt (by omega)]

/-- A step empties only the empty register: the generator is odd, and what was doubled is not. -/
theorem stepBit_eq_zero_iff {r : UInt16} : stepBit r = 0 ↔ r = 0 := by
  constructor
  · intro h
    have hlt := r.toNat_lt
    have hdouble := toNat_shiftLeft_one r
    rw [stepBit_eq] at h
    split_ifs at h with htop
    · have hgenerator := congrArg UInt16.toNat (UInt16.xor_eq_zero_iff.mp h)
      rw [hdouble] at hgenerator
      change r.toNat * 2 % 2 ^ 16 = 4129 at hgenerator
      omega
    · have hzero := congrArg UInt16.toNat (UInt16.xor_eq_zero_iff.mp h)
      rw [hdouble, UInt16.toNat_zero] at hzero
      rw [Nat.testBit_eq_decide_div_mod_eq, decide_eq_true_eq] at htop
      exact UInt16.toNat_inj.mp (by rw [UInt16.toNat_zero]; omega)
  · rintro rfl
    rfl

/-! ### Several steps -/

theorem stepBits_xor (n : ℕ) (a b : UInt16) :
    stepBits n (a ^^^ b) = stepBits n a ^^^ stepBits n b := by
  induction n generalizing a b with
  | zero => rfl
  | succ n ih => rw [stepBits, stepBits, stepBits, stepBit_xor, ih]

theorem stepBits_eq_zero_iff {n : ℕ} {r : UInt16} : stepBits n r = 0 ↔ r = 0 := by
  induction n generalizing r with
  | zero => rfl
  | succ n ih => rw [stepBits, ih, stepBit_eq_zero_iff]

/-- Steps that move no bit out at the top only move the register up. -/
theorem toNat_stepBits_of_lt {n : ℕ} (hn : n ≤ 16) {r : UInt16} (h : r.toNat < 2 ^ (16 - n)) :
    (stepBits n r).toNat = r.toNat * 2 ^ n := by
  induction n generalizing r with
  | zero => rw [stepBits, Nat.pow_zero, Nat.mul_one]
  | succ n ih =>
    have hpow : 2 ^ (16 - n) = 2 ^ (16 - (n + 1)) * 2 := by
      rw [← Nat.pow_succ]
      congr 1
      omega
    have hle : 2 ^ (16 - (n + 1)) ≤ 2 ^ 15 := Nat.pow_le_pow_right (by decide) (by omega)
    have hstep : (stepBit r).toNat = r.toNat * 2 := toNat_stepBit_of_lt (by omega)
    rw [stepBits, ih (by omega) (by rw [hstep, hpow]; omega), hstep, Nat.mul_assoc, Nat.pow_succ']

/-! ### Bits that come in -/

/-- A bit at the top of a register. -/
def topBit (bit : Bool) : UInt16 := if bit then 0x8000 else 0

/-- The register after one more bit. -/
def feedBit (r : UInt16) (bit : Bool) : UInt16 := stepBit (r ^^^ topBit bit)

/-- The register after more bits. -/
def feedBits (r : UInt16) (bits : List Bool) : UInt16 := bits.foldl feedBit r

/-- Up to sixteen bits at the top of a register, the first one topmost. -/
def aligned : List Bool → UInt16
  | [] => 0
  | bit :: rest => topBit bit ^^^ (aligned rest >>> 1)

@[simp] theorem feedBits_nil (r : UInt16) : feedBits r [] = r := rfl

theorem feedBits_cons (r : UInt16) (bit : Bool) (rest : List Bool) :
    feedBits r (bit :: rest) = feedBits (stepBit (r ^^^ topBit bit)) rest := rfl

theorem feedBits_append (r : UInt16) (front back : List Bool) :
    feedBits r (front ++ back) = feedBits (feedBits r front) back := List.foldl_append

/-- Zeros leave an empty register empty. -/
theorem feedBits_zero_replicate (zeros : ℕ) (rest : List Bool) :
    feedBits 0 (List.replicate zeros false ++ rest) = feedBits 0 rest := by
  induction zeros with
  | zero => rfl
  | succ zeros ih => exact ih

/-- A number above `n` bits and one within them have no bit in common. -/
theorem mul_two_pow_add_eq_xor (top : ℕ) {n rest : ℕ} (hrest : rest < 2 ^ n) :
    top * 2 ^ n + rest = (top * 2 ^ n) ^^^ rest := by
  apply Nat.eq_of_testBit_eq
  intro i
  rw [Nat.mul_comm, Nat.testBit_two_pow_mul_add _ hrest, Nat.testBit_xor, Nat.testBit_two_pow_mul]
  split_ifs with hi
  · simp [Nat.not_le.mpr hi]
  · have hle := Nat.not_lt.mp hi
    rw [Nat.testBit_lt_two_pow (Nat.lt_of_lt_of_le hrest (Nat.pow_le_pow_right (by decide) hle))]
    simp [hle]

theorem toNat_shiftRight_one (r : UInt16) : (r >>> 1).toNat = r.toNat / 2 := by
  simp [UInt16.toNat_shiftRight, Nat.shiftRight_eq_div_pow]

theorem toNat_aligned {bits : List Bool} (hbits : bits.length ≤ 16) :
    (aligned bits).toNat = valueOf bits * 2 ^ (16 - bits.length) := by
  induction bits with
  | nil => rfl
  | cons bit rest ih =>
    rw [List.length_cons] at hbits ⊢
    have hpow : 2 ^ (16 - rest.length) = 2 ^ (16 - (rest.length + 1)) * 2 := by
      rw [← Nat.pow_succ]
      congr 1
      omega
    have hhalf : (aligned rest >>> 1).toNat = valueOf rest * 2 ^ (16 - (rest.length + 1)) := by
      rw [toNat_shiftRight_one, ih (by omega), hpow, ← Nat.mul_assoc, Nat.mul_div_cancel _ (by decide)]
    have htop : (topBit bit).toNat = bit.toNat * 2 ^ 15 := by cases bit <;> rfl
    have hlow : valueOf rest * 2 ^ (16 - (rest.length + 1)) < 2 ^ 15 := by
      calc valueOf rest * 2 ^ (16 - (rest.length + 1))
          < 2 ^ rest.length * 2 ^ (16 - (rest.length + 1)) :=
            Nat.mul_lt_mul_of_pos_right (valueOf_lt rest) (Nat.two_pow_pos _)
        _ = 2 ^ 15 := by
            rw [← Nat.pow_add]
            congr 1
            omega
    rw [aligned, UInt16.toNat_xor, htop, hhalf, ← mul_two_pow_add_eq_xor _ hlow, valueOf,
      Nat.add_mul, Nat.mul_assoc, ← Nat.pow_add]
    congr 3
    omega

/-- Fewer than sixteen bits leave room at the bottom, so that moving them down by one place and
stepping brings them back. -/
theorem stepBit_aligned {bits : List Bool} (hbits : bits.length < 16) :
    stepBit (aligned bits >>> 1) = aligned bits := by
  have hlt := (aligned bits).toNat_lt
  have hshift := toNat_shiftRight_one (aligned bits)
  have heven : (aligned bits).toNat % 2 = 0 := by
    obtain ⟨room, hroom⟩ : ∃ room, 16 - bits.length = room + 1 := ⟨15 - bits.length, by omega⟩
    rw [toNat_aligned (by omega), hroom, Nat.pow_succ, ← Nat.mul_assoc, Nat.mul_mod_left]
  apply UInt16.toNat_inj.mp
  rw [toNat_stepBit_of_lt (by omega), hshift]
  omega

/-- Up to sixteen bits may come in at once, before the steps. -/
theorem feedBits_eq_stepBits (r : UInt16) {bits : List Bool} (hbits : bits.length ≤ 16) :
    feedBits r bits = stepBits bits.length (r ^^^ aligned bits) := by
  induction bits generalizing r with
  | nil => rw [feedBits_nil, aligned, UInt16.xor_zero, List.length_nil, stepBits]
  | cons bit rest ih =>
    rw [List.length_cons] at hbits ⊢
    rw [feedBits_cons, ih _ (by omega), stepBits, aligned, ← UInt16.xor_assoc,
      stepBit_xor _ (_ >>> _), stepBit_aligned (by omega)]

theorem feedBits_xor {front back : List Bool} (h : front.length = back.length) (r s : UInt16) :
    feedBits (r ^^^ s) (List.zipWith xor front back) = feedBits r front ^^^ feedBits s back := by
  induction front generalizing back r s with
  | nil => rw [List.eq_nil_of_length_eq_zero h.symm]; rfl
  | cons bit rest ih =>
    cases back with
    | nil => simp at h
    | cons other others =>
      have htop : topBit (xor bit other) = topBit bit ^^^ topBit other := by
        cases bit <;> cases other <;> decide
      have hsplit : (r ^^^ s) ^^^ (topBit bit ^^^ topBit other) =
          (r ^^^ topBit bit) ^^^ (s ^^^ topBit other) := by ac_rfl
      rw [List.zipWith_cons_cons, feedBits_cons, feedBits_cons, feedBits_cons, htop, hsplit,
        stepBit_xor, ih (by simpa using h)]

/-! ### What is never lost -/

theorem stepBits_injective (n : ℕ) : Function.Injective (stepBits n) := by
  intro r s h
  rw [← UInt16.xor_eq_zero_iff, ← stepBits_xor, stepBits_eq_zero_iff] at h
  exact UInt16.xor_eq_zero_iff.mp h

/-- Registers that differ keep differing under the same bits. -/
theorem feedBits_left_injective (bits : List Bool) :
    Function.Injective fun r ↦ feedBits r bits := by
  intro r s h
  induction bits generalizing r s with
  | nil => exact h
  | cons bit rest ih =>
    have hstep := stepBits_injective 1 (ih h)
    exact (UInt16.xor_left_inj _).mp hstep

/-- Up to sixteen bits that differ leave registers that differ. -/
theorem feedBits_right_injective {r : UInt16} {first second : List Bool}
    (hlength : first.length = second.length) (hshort : first.length ≤ 16)
    (h : feedBits r first = feedBits r second) : first = second := by
  rw [feedBits_eq_stepBits r hshort, feedBits_eq_stepBits r (hlength ▸ hshort), hlength] at h
  have haligned := (UInt16.xor_right_inj r).mp (stepBits_injective _ h)
  have hvalue := congrArg UInt16.toNat haligned
  rw [toNat_aligned hshort, toNat_aligned (hlength ▸ hshort), hlength] at hvalue
  rw [← bitsOf_valueOf first, ← bitsOf_valueOf second, hlength,
    Nat.eq_of_mul_eq_mul_right (Nat.two_pow_pos _) hvalue]

/-! ### Bytes -/

theorem toNat_and_lowByte (r : UInt16) : (r &&& 0xFF).toNat = r.toNat % 2 ^ 8 :=
  Nat.and_two_pow_sub_one_eq_mod r.toNat 8

/-- A register is its top byte and its low byte. -/
theorem top_xor_low (r : UInt16) :
    ((r >>> 8).toUInt8.toUInt16 <<< 8) ^^^ (r &&& 0xFF) = r := by
  have hlt := r.toNat_lt
  have htop : ((r >>> 8).toUInt8.toUInt16 <<< 8).toNat = r.toNat / 256 * 2 ^ 8 := by
    simp [Nat.shiftRight_eq_div_pow, Nat.shiftLeft_eq]
    omega
  apply UInt16.toNat_inj.mp
  rw [UInt16.toNat_xor, htop, toNat_and_lowByte, ← mul_two_pow_add_eq_xor _ (Nat.mod_lt _ (by decide))]
  omega

/-- The low byte moves up by eight steps of the division as it is. -/
theorem stepBits_low (r : UInt16) : stepBits 8 (r &&& 0xFF) = r <<< 8 := by
  have hlow : (r &&& 0xFF).toNat < 2 ^ 8 := by
    rw [toNat_and_lowByte]
    exact Nat.mod_lt _ (by decide)
  apply UInt16.toNat_inj.mp
  rw [toNat_stepBits_of_lt (by decide) hlow, toNat_and_lowByte]
  simp [UInt16.toNat_shiftLeft, Nat.shiftLeft_eq]
  omega

theorem get_table (b : UInt8) :
    table.get ⟨b.toNat, b.toNat_lt⟩ = stepBits 8 (b.toUInt16 <<< 8) := by
  rw [← UInt16.ofNat_uInt8ToNat]
  exact Vector.getElem_ofFn b.toNat_lt

theorem aligned_byte (b : UInt8) : aligned (bitsOf 8 b.toNat) = b.toUInt16 <<< 8 := by
  have hlt := b.toNat_lt
  apply UInt16.toNat_inj.mp
  rw [toNat_aligned (by rw [length_bitsOf]; decide), length_bitsOf, valueOf_bitsOf,
    Nat.mod_eq_of_lt hlt]
  simp [UInt16.toNat_shiftLeft, Nat.shiftLeft_eq]
  omega

/-- A byte that comes in over the table is its eight bits, one by one. -/
theorem feed_eq_feedBits (r : UInt16) (b : UInt8) : feed r b = feedBits r (bitsOf 8 b.toNat) := by
  have hlength : (bitsOf 8 b.toNat).length = 8 := length_bitsOf 8 _
  rw [feedBits_eq_stepBits r (by rw [hlength]; decide), hlength, aligned_byte, feed, get_table,
    ← stepBits_low, ← stepBits_xor, UInt8.toUInt16_xor, UInt16.shiftLeft_xor, ← UInt16.xor_assoc,
    UInt16.xor_comm (r &&& 0xFF), top_xor_low]

/-- The checksum of bytes is the register that their bits leave. -/
theorem checksum_eq_feedBits (data : Bytes) : checksum data = feedBits 0 (byteBits data) := by
  have hfold (r : UInt16) : data.foldl feed r = feedBits r (byteBits data) := by
    induction data generalizing r with
    | nil => rfl
    | cons b rest ih => rw [List.foldl_cons, ih, byteBits_cons, feedBits_append, feed_eq_feedBits]
  exact hfold 0

end RoleKey.Checksum
