import RoleKey.Proofs.BitStrings

/-!
Base 32 is a regrouping of bits.

A `Register` stands for the bits that it holds (`Register.held`). One step of writing and one step
of reading lose no bit and invent none: what goes out and what is held after a step are what was
held before and what came in (`digitBits_digitsOf`, `byteBits_byteOf`). Both keep the register
within its bounds (`Fits.afterByte`, `Fits.afterDigit`), so that no shift drops a bit that is set.
By induction the digits of a byte string have its bits, filled up with fewer than five zeros to
whole digits (`digitBits_digits`), and reading accepts a digit string exactly if it has that form
(`bytesFrom_eq_some_iff`).
-/

set_option autoImplicit false
set_option relaxedAutoImplicit false

namespace RoleKey.Base32

/-! ### Words -/

theorem toNat_shiftLeft_ofNat (word : UInt16) {n : ℕ} (hn : n < 16) :
    (word <<< UInt16.ofNat n).toNat = word.toNat * 2 ^ n % 2 ^ 16 := by
  rw [UInt16.toNat_shiftLeft, UInt16.toNat_ofNat', Nat.mod_eq_of_lt (by omega : n < 2 ^ 16),
    Nat.mod_eq_of_lt hn, Nat.shiftLeft_eq]

theorem toNat_shiftRight_ofNat (word : UInt16) {n : ℕ} (hn : n < 16) :
    (word >>> UInt16.ofNat n).toNat = word.toNat / 2 ^ n := by
  rw [UInt16.toNat_shiftRight, UInt16.toNat_ofNat', Nat.mod_eq_of_lt (by omega : n < 2 ^ 16),
    Nat.mod_eq_of_lt hn, Nat.shiftRight_eq_div_pow]

theorem toNat_lowMask : ∀ n < 16, ((1 <<< UInt16.ofNat n) - 1 : UInt16).toNat = 2 ^ n - 1 := by
  decide

theorem val_lowDigit (word : UInt16) : (lowDigit word).val = word.toNat % 2 ^ 5 := by
  change (word &&& 0x1F).toNat = _
  rw [UInt16.toNat_and]
  exact Nat.and_two_pow_sub_one_eq_mod word.toNat 5

theorem bitsOf_lowDigit (word : UInt16) : bitsOf 5 (lowDigit word).val = bitsOf 5 word.toNat := by
  rw [val_lowDigit, bitsOf_mod (Nat.le_refl 5)]

/-! ### Registers -/

namespace Register

/-- The bits that the register holds. -/
def held (r : Register) : List Bool := bitsOf r.bits r.buffer.toNat

/-- Fewer than `limit` bits are held, and no other bit of the buffer is set. -/
structure Fits (r : Register) (limit : ℕ) : Prop where
  bits_lt : r.bits < limit
  buffer_lt : r.buffer.toNat < 2 ^ r.bits

@[simp] theorem length_held (r : Register) : r.held.length = r.bits := length_bitsOf _ _

theorem fits_empty : empty.Fits 5 := ⟨by decide, by decide⟩

@[simp] theorem held_empty : empty.held = [] := rfl

theorem Fits.mono {r : Register} {small large : ℕ} (hr : r.Fits small) (h : small ≤ large) :
    r.Fits large :=
  ⟨Nat.lt_of_lt_of_le hr.bits_lt h, hr.buffer_lt⟩

/-- The buffer has room for as many more bits as the word has beyond those held. -/
theorem Fits.mul_two_pow_lt {r : Register} {limit : ℕ} (hr : r.Fits limit) (width : ℕ) :
    r.buffer.toNat * 2 ^ width < 2 ^ (r.bits + width) := by
  rw [Nat.pow_add]
  exact Nat.mul_lt_mul_of_pos_right hr.buffer_lt (Nat.two_pow_pos width)

/-- Shifting in drops no bit that is set, as long as the word has room for all of them. -/
theorem Fits.toNat_shiftIn {r : Register} (hr : r.Fits 8) {width : ℕ} (hwidth : width ≤ 8)
    {value : UInt16} (hvalue : value.toNat < 2 ^ width) :
    (r.shiftIn width value).buffer.toNat = r.buffer.toNat * 2 ^ width + value.toNat := by
  have hroom : r.buffer.toNat * 2 ^ width < 2 ^ 16 :=
    Nat.lt_of_lt_of_le (hr.mul_two_pow_lt width)
      (Nat.pow_le_pow_right (by decide) (by have := hr.bits_lt; omega))
  change ((r.buffer <<< UInt16.ofNat width) ||| value).toNat = _
  rw [UInt16.toNat_or, toNat_shiftLeft_ofNat _ (by omega), Nat.mod_eq_of_lt hroom,
    ← Nat.shiftLeft_eq, Nat.shiftLeft_add_eq_or_of_lt hvalue]

/-- What came in stands behind what was held. -/
theorem Fits.bitsOf_shiftIn {r : Register} (hr : r.Fits 8) {width : ℕ} (hwidth : width ≤ 8)
    {value : UInt16} (hvalue : value.toNat < 2 ^ width) :
    bitsOf (r.bits + width) (r.shiftIn width value).buffer.toNat =
      r.held ++ bitsOf width value.toNat := by
  rw [hr.toNat_shiftIn hwidth hvalue, bitsOf_mul_add _ _ _ hvalue, held]

theorem toNat_keep (r : Register) {rest : ℕ} (hrest : rest < 16) :
    (r.keep rest).buffer.toNat = r.buffer.toNat % 2 ^ rest := by
  change (r.buffer &&& ((1 <<< UInt16.ofNat rest) - 1)).toNat = _
  rw [UInt16.toNat_and, toNat_lowMask rest hrest, Nat.and_two_pow_sub_one_eq_mod]

theorem fits_keep (r : Register) {rest limit : ℕ} (hlimit : limit ≤ 16) (hrest : rest < limit) :
    (r.keep rest).Fits limit := by
  refine ⟨hrest, ?_⟩
  rw [toNat_keep r (Nat.lt_of_lt_of_le hrest hlimit)]
  exact Nat.mod_lt _ (Nat.two_pow_pos rest)

theorem held_keep (r : Register) {rest : ℕ} (hrest : rest < 16) :
    (r.keep rest).held = bitsOf rest r.buffer.toNat := by
  change bitsOf rest (r.keep rest).buffer.toNat = _
  rw [toNat_keep r hrest, bitsOf_mod (Nat.le_refl rest)]

end Register

open Register

/-! ### Writing -/

/-- The whole digits of a word and the fewer than five bits left over are all its bits. -/
theorem digitBits_wholeDigits (word : UInt16) (bits : ℕ) (hbits : bits < 21) :
    digitBits (wholeDigits word bits) ++ bitsOf (bits % 5) word.toNat =
      bitsOf bits word.toNat := by
  induction bits using wholeDigits.induct with
  | case1 bits ih =>
    change digitBits (wholeDigits word (bits + 5)) ++ bitsOf ((bits + 5) % 5) _ =
      bitsOf (bits + 5) _
    rw [wholeDigits, digitBits_cons, List.append_assoc, Nat.add_mod_right, ih (by omega),
      bitsOf_lowDigit, toNat_shiftRight_ofNat word (by omega), ← bitsOf_add, Nat.add_comm 5 bits]
  | case2 bits hsmall =>
    have hlt : bits < 5 := by
      by_contra hle
      exact hsmall (bits - 5) (by omega)
    rw [wholeDigits, digitBits_nil, List.nil_append, Nat.mod_eq_of_lt hlt]
    exact hsmall

/-- As a byte comes in, the digits that go out and the bits then held are those that were held and
those of the byte. -/
theorem Register.Fits.digitBits_digitsOf {r : Register} (hr : r.Fits 5) (b : UInt8) :
    digitBits (r.digitsOf b) ++ (r.afterByte b).held = r.held ++ byteBits [b] := by
  have hbits := hr.bits_lt
  have hvalue : b.toUInt16.toNat < 2 ^ 8 := b.toNat_lt
  rw [afterByte, held_keep _ (by omega), digitsOf, digitBits_wholeDigits _ _ (by omega),
    (hr.mono (by decide)).bitsOf_shiftIn (Nat.le_refl 8) hvalue]
  rfl

theorem Register.Fits.afterByte (r : Register) (b : UInt8) : (r.afterByte b).Fits 5 :=
  fits_keep _ (by decide) (Nat.mod_lt _ (by decide))

/-- The digit for what is left at the end, if anything is, has those bits and then zeros. -/
theorem Register.Fits.digitBits_lastDigits {r : Register} (hr : r.Fits 5) :
    digitBits r.lastDigits = r.held ++ List.replicate ((5 - r.bits) % 5) false := by
  have hbits := hr.bits_lt
  unfold Register.lastDigits
  split_ifs with hpos
  · have hroom : r.bits + (5 - r.bits) = 5 := by omega
    have hword : bitsOf 5 (r.buffer.toNat * 2 ^ (5 - r.bits)) =
        r.held ++ List.replicate (5 - r.bits) false := by
      have hsplit := bitsOf_mul_add r.bits (5 - r.bits) r.buffer.toNat (Nat.two_pow_pos _)
      rwa [Nat.add_zero, hroom, bitsOf_zero] at hsplit
    rw [digitBits_cons, digitBits_nil, List.append_nil, bitsOf_lowDigit,
      toNat_shiftLeft_ofNat _ (by omega), bitsOf_mod (by decide), hword,
      Nat.mod_eq_of_lt (by omega : 5 - r.bits < 5)]
  · have hzero : r.bits = 0 := by omega
    simp [held, hzero, bitsOf]

/-- The digits of a byte string have the bits held before, those of the bytes, and fewer than five
zeros that fill up the last digit. -/
theorem digitBits_digitsFrom {r : Register} (hr : r.Fits 5) (data : Bytes) :
    ∃ filler < 5, digitBits (digitsFrom r data) =
      r.held ++ byteBits data ++ List.replicate filler false := by
  induction data generalizing r with
  | nil =>
    refine ⟨(5 - r.bits) % 5, Nat.mod_lt _ (by decide), ?_⟩
    rw [digitsFrom, hr.digitBits_lastDigits, byteBits_nil, List.append_nil]
  | cons b rest ih =>
    obtain ⟨filler, hfiller, hrest⟩ := ih (Fits.afterByte r b)
    refine ⟨filler, hfiller, ?_⟩
    have hstep := hr.digitBits_digitsOf b
    rw [digitsFrom, digitBits_append, hrest, ← List.append_assoc, ← List.append_assoc, hstep]
    simp

theorem digitBits_digits (data : Bytes) :
    ∃ filler < 5, digitBits (digits data) = byteBits data ++ List.replicate filler false :=
  digitBits_digitsFrom fits_empty data

/-! ### Reading -/

/-- As a digit comes in, the byte that goes out, if one does, and the bits then held are those that
were held and those of the digit. -/
theorem Register.Fits.byteBits_byteOf {r : Register} (hr : r.Fits 8) (d : Digit) :
    byteBits (r.byteOf d).toList ++ (r.afterDigit d).held = r.held ++ digitBits [d] := by
  have hbits := hr.bits_lt
  have hvalue : (UInt16.ofNat d.val).toNat = d.val := by
    rw [UInt16.toNat_ofNat', Nat.mod_eq_of_lt (by omega)]
  have hlt : (UInt16.ofNat d.val).toNat < 2 ^ 5 := by
    rw [hvalue]
    exact d.isLt
  have hword := hr.bitsOf_shiftIn (by decide) hlt
  rw [hvalue] at hword
  rw [afterDigit, held_keep _ (by omega), digitBits_cons, digitBits_nil, List.append_nil, ← hword]
  unfold Register.byteOf
  split_ifs with hwhole
  · have hrest : (r.bits + 5) % 8 = r.bits + 5 - 8 := by omega
    have htotal : r.bits + 5 = 8 + (r.bits + 5 - 8) := by omega
    rw [hrest, Option.toList_some, byteBits_cons, byteBits_nil, List.append_nil]
    conv_rhs => rw [htotal, bitsOf_add]
    congr 1
    change bitsOf 8 (((r.shiftIn 5 _).buffer >>> _).toUInt8).toNat = _
    rw [UInt16.toNat_toUInt8, bitsOf_mod (Nat.le_refl 8), toNat_shiftRight_ofNat _ (by omega)]
  · rw [Option.toList_none, byteBits_nil, List.nil_append, Nat.mod_eq_of_lt (by omega)]

theorem Register.Fits.afterDigit (r : Register) (d : Digit) : (r.afterDigit d).Fits 8 :=
  fits_keep _ (by decide) (Nat.mod_lt _ (by decide))

/-- Reading may end exactly where the register holds fewer than five bits and none is set. -/
theorem Register.Fits.isSpent_iff {r : Register} (hr : r.Fits 8) :
    r.isSpent = true ↔ ∃ filler < 5, r.held = List.replicate filler false := by
  simp only [isSpent, Bool.and_eq_true, decide_eq_true_eq, beq_iff_eq]
  constructor
  · rintro ⟨hbits, hbuffer⟩
    exact ⟨r.bits, hbits, by simp [held, hbuffer]⟩
  · rintro ⟨filler, hfiller, hheld⟩
    have hlength := congrArg List.length hheld
    rw [length_held, List.length_replicate] at hlength
    refine ⟨by omega, ?_⟩
    rw [← hlength, ← bitsOf_zero, held, bitsOf_eq_iff, Nat.mod_eq_of_lt hr.buffer_lt,
      Nat.zero_mod] at hheld
    exact UInt16.toNat_inj.mp hheld

/-- A byte string whose bits begin with those of another begins with that other byte string. -/
theorem byteBits_cut {front data : Bytes} {back : List Bool} {filler : ℕ} (hfiller : filler < 5)
    (h : byteBits front ++ back = byteBits data ++ List.replicate filler false) :
    ∃ rest, data = front ++ rest ∧ back = byteBits rest ++ List.replicate filler false := by
  have hlength : front.length ≤ data.length := by
    have := congrArg List.length h
    simp only [List.length_append, length_byteBits, List.length_replicate] at this
    omega
  rw [← List.take_append_drop front.length data, byteBits_append, List.append_assoc] at h
  obtain ⟨hfront, hback⟩ := List.append_inj h (by simp [hlength])
  refine ⟨data.drop front.length, ?_, hback⟩
  rw [byteBits_injective hfront, List.length_take, Nat.min_eq_left hlength,
    List.take_append_drop]

/-- Reading takes exactly the digits whose bits, behind those held, are whole bytes and fewer than
five zeros. The step equation of `byteBits_byteOf` carries the induction both ways. -/
theorem bytesFrom_eq_some_iff {r : Register} (hr : r.Fits 8) (ds : List Digit) (data : Bytes) :
    bytesFrom r ds = some data ↔
      ∃ filler < 5, r.held ++ digitBits ds = byteBits data ++ List.replicate filler false := by
  induction ds generalizing r data with
  | nil =>
    rw [bytesFrom, digitBits_nil, List.append_nil]
    have hshort {filler : ℕ} (h : r.held = byteBits data ++ List.replicate filler false) :
        data = [] := by
      have hlength := congrArg List.length h
      have hbits := hr.bits_lt
      simp only [length_held, List.length_append, length_byteBits] at hlength
      exact List.eq_nil_of_length_eq_zero (by omega)
    split_ifs with hspent
    · constructor
      · intro h
        rw [← Option.some.inj h]
        exact hr.isSpent_iff.mp hspent
      · rintro ⟨filler, _, h⟩
        rw [hshort h]
    · refine ⟨fun h ↦ by simp at h, ?_⟩
      rintro ⟨filler, hfiller, h⟩
      rw [hshort h, byteBits_nil, List.nil_append] at h
      exact absurd (hr.isSpent_iff.mpr ⟨filler, hfiller, h⟩) hspent
  | cons d rest ih =>
    have hstep : r.held ++ digitBits (d :: rest) =
        byteBits (r.byteOf d).toList ++ ((r.afterDigit d).held ++ digitBits rest) := by
      rw [← List.append_assoc, hr.byteBits_byteOf d]
      simp
    rw [bytesFrom, Option.map_eq_some_iff, hstep]
    constructor
    · rintro ⟨others, hothers, rfl⟩
      obtain ⟨filler, hfiller, h⟩ := (ih (Fits.afterDigit r d) others).mp hothers
      exact ⟨filler, hfiller, by rw [h, byteBits_append, List.append_assoc]⟩
    · rintro ⟨filler, hfiller, h⟩
      obtain ⟨others, hdata, hrest⟩ := byteBits_cut hfiller h
      exact ⟨others, (ih (Fits.afterDigit r d) others).mpr ⟨filler, hfiller, hrest⟩, hdata.symm⟩

end RoleKey.Base32
