import RoleKey.Guarded
import RoleKey.Proofs.Base32Bijection
import RoleKey.Proofs.HexadecimalInverse

/-!
Base 32 passes all of its guards.

Before each byte of writing the register holds fewer than five bits, before each character of
reading fewer than eight, and no other bit of the buffer is set. One step of either kind passes its
guards under that bound (`byteIn_eq`, `charIn_of_digit`) and leaves a register within it, so all
bytes are written and all characters read without a breach, with the outcome that unguarded writing
and reading have (`encode_eq`, `decode_eq`).
-/

set_option autoImplicit false
set_option relaxedAutoImplicit false

namespace RoleKey.Guarded

/-! ### Operations that pass -/

section Operations

variable {α : Type} {xs : List α} {word : UInt16}

theorem ok_bind {β : Type} (a : α) (f : α → Guarded β) : ((.ok a : Guarded α) >>= f) = f a := rfl

theorem index_eq_ok {i : ℕ} (h : i < xs.length) : index xs i = .ok xs[i] := by
  rw [index, List.getElem?_eq_getElem h]

theorem front_eq_ok {n : ℕ} (h : n ≤ xs.length) : front xs n = .ok (xs.take n) := if_pos h

theorem back_eq_ok {n : ℕ} (h : n ≤ xs.length) : back xs n = .ok (xs.drop n) := if_pos h

theorem minus_eq_ok {m n : ℕ} (h : n ≤ m) : minus m n = .ok ⟨m - n, Nat.sub_add_cancel h⟩ :=
  dif_pos h

theorem minus_eq_ok_of_add {d m n : ℕ} (h : d + n = m) : minus m n = .ok ⟨d, h⟩ := by
  subst h
  simp [minus]

theorem shiftLeft_eq_ok {n : ℕ} (hn : n < 16) (hroom : word.toNat * 2 ^ n < 2 ^ 16) :
    shiftLeft word n = .ok (word <<< UInt16.ofNat n) := by
  rw [shiftLeft, if_neg (Nat.not_le.mpr hn), Nat.shiftLeft_eq]
  exact if_pos hroom

theorem shiftRight_eq_ok {n : ℕ} (hn : n < 16) :
    shiftRight word n = .ok (word >>> UInt16.ofNat n) :=
  if_neg (Nat.not_le.mpr hn)

theorem narrow_eq_ok (h : word.toNat < 2 ^ 8) : narrow word = .ok word.toUInt8 := if_pos h

theorem lowMask_eq_ok {n : ℕ} (hn : n < 16) :
    lowMask n = .ok ((1 <<< UInt16.ofNat n) - 1) := by
  have hroom : (1 : UInt16).toNat * 2 ^ n < 2 ^ 16 := by
    rw [UInt16.toNat_one, Nat.one_mul]
    exact Nat.pow_lt_pow_right (by decide) hn
  have htop : (1 <<< UInt16.ofNat n : UInt16).toNat = 2 ^ n := by
    rw [RoleKey.Base32.toNat_shiftLeft_ofNat 1 hn, Nat.mod_eq_of_lt hroom, UInt16.toNat_one,
      Nat.one_mul]
  have hpos : 1 ≤ (1 <<< UInt16.ofNat n : UInt16).toNat := htop ▸ Nat.one_le_two_pow
  refine bind_eq_ok_iff.mpr ⟨_, shiftLeft_eq_ok hn hroom, bind_eq_ok_iff.mpr
    ⟨_, minus_eq_ok hpos, ?_⟩⟩
  have hmask : UInt16.ofNat ((1 <<< UInt16.ofNat n : UInt16).toNat - 1) =
      (1 <<< UInt16.ofNat n) - 1 := by
    rw [htop, ← RoleKey.Base32.toNat_lowMask n hn, UInt16.ofNat_toNat]
  rw [← hmask]
  rfl

/-- Without a breach there is none. -/
theorem lift_ne_breach (outcome : Except KeyError α) (b : Breach) :
    lift outcome ≠ .error (.breach b) := by
  cases outcome <;> simp [lift, Except.mapError]

end Operations

namespace Base32

open RoleKey.Base32 (Digit Register alphabet digit? digitsFrom letter lowDigit bytesFrom)

variable {r : Register}

/-! ### Writing -/

theorem index_alphabet (word : UInt16) :
    index alphabet.toList (word &&& 0x1F).toNat = .ok (letter (lowDigit word)) := by
  have hlist : alphabet.toList = (List.finRange 32).map letter := String.toList_ofList
  have hlt : (word &&& 0x1F).toNat < 32 := (lowDigit word).isLt
  rw [hlist, index_eq_ok (by simpa using hlt)]
  simp [lowDigit]

/-- Whole digits go off without a breach; fewer than five bits are left. -/
theorem wholeDigits_eq (word : UInt16) {bits : ℕ} (hbits : bits < 21) :
    wholeDigits word bits =
      .ok ((RoleKey.Base32.wholeDigits word bits).map letter, bits % 5) := by
  induction bits using RoleKey.Base32.wholeDigits.induct with
  | case1 bits ih =>
    change wholeDigits word (bits + 5) = .ok (List.map letter
      (RoleKey.Base32.wholeDigits word (bits + 5)), (bits + 5) % 5)
    rw [wholeDigits, if_pos (Nat.le_add_left 5 bits), Nat.add_mod_right]
    refine bind_eq_ok_iff.mpr ⟨_, minus_eq_ok_of_add rfl, bind_eq_ok_iff.mpr
      ⟨_, shiftRight_eq_ok (by omega), bind_eq_ok_iff.mpr ⟨_, index_alphabet _,
        bind_eq_ok_iff.mpr ⟨_, ih (by omega), ?_⟩⟩⟩⟩
    rfl
  | case2 bits hsmall =>
    have hlt : bits < 5 := by
      by_contra hle
      exact hsmall (bits - 5) (by omega)
    rw [wholeDigits, if_neg (Nat.not_le.mpr hlt), RoleKey.Base32.wholeDigits,
      Nat.mod_eq_of_lt hlt]
    · rfl
    · exact hsmall

/-- One byte is written without a breach while the register is within its bound. -/
theorem byteIn_eq (hr : r.Fits 5) (b : UInt8) :
    byteIn r b = .ok ((r.digitsOf b).map letter, r.afterByte b) := by
  have hbits := hr.bits_lt
  have hroom : r.buffer.toNat * 2 ^ 8 < 2 ^ 16 :=
    Nat.lt_of_lt_of_le (hr.mul_two_pow_lt 8) (Nat.pow_le_pow_right (by decide) (by omega))
  have hleft : (r.bits + 8) % 5 < 16 := by omega
  refine bind_eq_ok_iff.mpr ⟨_, shiftLeft_eq_ok (by decide) hroom, bind_eq_ok_iff.mpr
    ⟨_, wholeDigits_eq _ (by omega), bind_eq_ok_iff.mpr ⟨_, lowMask_eq_ok hleft, ?_⟩⟩⟩
  rfl

/-- The register stays within its bound as bytes come in. -/
theorem fits_foldl_afterByte (hr : r.Fits 5) (data : Bytes) :
    (data.foldl Register.afterByte r).Fits 5 := by
  induction data generalizing r with
  | nil => exact hr
  | cons b rest ih => exact ih (Register.Fits.afterByte r b)

/-- All bytes are written without a breach. -/
theorem bytesIn_eq (hr : r.Fits 5) (data : Bytes) :
    ∃ out, bytesIn r data = .ok (out, data.foldl Register.afterByte r) ∧
      (digitsFrom r data).map letter =
        out ++ (data.foldl Register.afterByte r).lastDigits.map letter := by
  induction data generalizing r with
  | nil => exact ⟨[], rfl, rfl⟩
  | cons b rest ih =>
    obtain ⟨out, hrest, hdigits⟩ := ih (Register.Fits.afterByte r b)
    refine ⟨(r.digitsOf b).map letter ++ out, ?_, ?_⟩
    · exact bind_eq_ok_iff.mpr ⟨_, byteIn_eq hr b, bind_eq_ok_iff.mpr ⟨_, hrest, rfl⟩⟩
    · rw [digitsFrom, List.map_append, hdigits, List.append_assoc, List.foldl_cons]

theorem lastDigits_eq (hr : r.Fits 5) : lastDigits r = .ok (r.lastDigits.map letter) := by
  have hbits := hr.bits_lt
  rw [lastDigits, Register.lastDigits]
  split_ifs with hpos
  · have hroom : r.buffer.toNat * 2 ^ (5 - r.bits) < 2 ^ 16 :=
      Nat.lt_of_lt_of_le (hr.mul_two_pow_lt (5 - r.bits))
        (Nat.pow_le_pow_right (by decide) (by omega))
    exact bind_eq_ok_iff.mpr ⟨_, minus_eq_ok (Nat.le_of_lt hbits), bind_eq_ok_iff.mpr
      ⟨_, shiftLeft_eq_ok (Nat.lt_of_le_of_lt (Nat.sub_le 5 r.bits) (by decide)) hroom,
        bind_eq_ok_iff.mpr ⟨_, index_alphabet _, rfl⟩⟩⟩
  · rfl

/-- Writing passes all guards. -/
theorem encode_eq (data : Bytes) : encode data = .ok (RoleKey.Base32.encode data) := by
  obtain ⟨out, hread, hdigits⟩ := bytesIn_eq Register.fits_empty data
  refine bind_eq_ok_iff.mpr ⟨_, hread, bind_eq_ok_iff.mpr
    ⟨_, lastDigits_eq (fits_foldl_afterByte Register.fits_empty data), ?_⟩⟩
  rw [RoleKey.Base32.encode, RoleKey.Base32.digits, hdigits]
  rfl

/-! ### Reading -/

/-- The digit of the character with this code. -/
def digitOfByte (c : UInt8) : Option Digit := digit? (Char.ofNat c.toNat)

/-- What the table holds of a digit. -/
def entry : Option Digit → UInt8
  | some d => UInt8.ofNat d.val
  | none => noDigit

theorem index_table (c : UInt8) : index table c.toNat = .ok (entry (digitOfByte c)) := by
  have hlt : c.toNat < table.length := by
    rw [table, List.length_map, List.length_range]
    exact c.toNat_lt
  rw [index_eq_ok hlt]
  simp only [table, List.getElem_map, List.getElem_range]
  rfl

theorem entry_ne_noDigit : ∀ d : Digit, entry (some d) ≠ noDigit := by decide

theorem toUInt16_entry : ∀ d : Digit, (entry (some d)).toUInt16 = UInt16.ofNat d.val := by decide

theorem charIn_of_none {c : UInt8} (hc : digitOfByte c = none) (r : Register) :
    charIn r c = refuse .invalidEncoding := by
  rw [charIn, index_table, hc]
  rfl

/-- One character is read without a breach while the register is within its bound. -/
theorem charIn_of_digit (hr : r.Fits 8) {c : UInt8} {d : Digit} (hc : digitOfByte c = some d) :
    charIn r c = .ok ((r.byteOf d).toList, r.afterDigit d) := by
  have hbits := hr.bits_lt
  have hroom : r.buffer.toNat * 2 ^ 5 < 2 ^ 16 :=
    Nat.lt_of_lt_of_le (hr.mul_two_pow_lt 5) (Nat.pow_le_pow_right (by decide) (by omega))
  have hvalue : (UInt16.ofNat d.val).toNat < 2 ^ 5 := by
    rw [UInt16.toNat_ofNat', Nat.mod_eq_of_lt (by omega)]
    exact d.isLt
  have hword : (r.shiftIn 5 (UInt16.ofNat d.val)).buffer.toNat < 2 ^ (r.bits + 5) := by
    rw [hr.toNat_shiftIn (by decide) hvalue, Nat.pow_add]
    have := hr.buffer_lt
    omega
  refine bind_eq_ok_iff.mpr ⟨_, index_table c, ?_⟩
  rw [hc, if_neg (entry_ne_noDigit d), toUInt16_entry]
  refine bind_eq_ok_iff.mpr ⟨_, shiftLeft_eq_ok (by decide) hroom, ?_⟩
  dsimp only
  by_cases hwhole : 8 ≤ r.bits + 5
  · have hrest : r.bits + 5 - 8 + 8 = r.bits + 5 := Nat.sub_add_cancel hwhole
    have hbyte : ((r.shiftIn 5 (UInt16.ofNat d.val)).above (r.bits + 5 - 8)).toNat < 2 ^ 8 := by
      change ((r.shiftIn 5 (UInt16.ofNat d.val)).buffer >>> _).toNat < _
      rw [RoleKey.Base32.toNat_shiftRight_ofNat _ (by omega), Nat.div_lt_iff_lt_mul
        (Nat.two_pow_pos _), ← Nat.pow_add, Nat.add_comm, hrest]
      exact hword
    have hmod : (r.bits + 5) % 8 = r.bits + 5 - 8 := by omega
    have hshift : r.bits + 5 - 8 < 16 := by omega
    rw [if_pos hwhole, Register.byteOf, if_pos hwhole, Register.afterDigit, hmod]
    exact bind_eq_ok_iff.mpr ⟨_, minus_eq_ok_of_add hrest, bind_eq_ok_iff.mpr
      ⟨_, shiftRight_eq_ok hshift, bind_eq_ok_iff.mpr ⟨_, narrow_eq_ok hbyte,
        bind_eq_ok_iff.mpr ⟨_, lowMask_eq_ok hshift, rfl⟩⟩⟩⟩
  · have hmod : (r.bits + 5) % 8 = r.bits + 5 := Nat.mod_eq_of_lt (Nat.not_le.mp hwhole)
    rw [if_neg hwhole, Register.byteOf, if_neg hwhole, Register.afterDigit, hmod]
    exact bind_eq_ok_iff.mpr ⟨_, lowMask_eq_ok (by omega), rfl⟩

/-- The register stays within its bound as digits come in. -/
theorem fits_foldl_afterDigit (hr : r.Fits 8) (ds : List Digit) :
    (ds.foldl Register.afterDigit r).Fits 8 := by
  induction ds generalizing r with
  | nil => exact hr
  | cons d rest ih => exact ih (Register.Fits.afterDigit r d)

/-- All characters of digits are read without a breach. -/
theorem charsIn_of_digits (hr : r.Fits 8) {chars : Bytes} {ds : List Digit}
    (hchars : chars.mapM digitOfByte = some ds) :
    ∃ out, charsIn r chars = .ok (out, ds.foldl Register.afterDigit r) ∧
      bytesFrom r ds = if (ds.foldl Register.afterDigit r).isSpent then some out else none := by
  induction chars generalizing r ds with
  | nil =>
    obtain rfl : [] = ds := Option.some.inj hchars
    exact ⟨[], rfl, rfl⟩
  | cons c chars ih =>
    rw [List.mapM_cons] at hchars
    obtain ⟨d, hc, hchars⟩ := Option.bind_eq_some_iff.mp hchars
    obtain ⟨rest, hrest, hds⟩ := Option.bind_eq_some_iff.mp hchars
    obtain rfl : d :: rest = ds := Option.some.inj hds
    obtain ⟨out, hread, hbytes⟩ := ih (Register.Fits.afterDigit r d) hrest
    refine ⟨(r.byteOf d).toList ++ out, ?_, ?_⟩
    · exact bind_eq_ok_iff.mpr ⟨_, charIn_of_digit hr hc, bind_eq_ok_iff.mpr ⟨_, hread, rfl⟩⟩
    · rw [bytesFrom, hbytes, List.foldl_cons]
      cases (rest.foldl Register.afterDigit (r.afterDigit d)).isSpent <;> rfl

/-- A character that is none of a digit is refused, without a breach before it. -/
theorem charsIn_of_none (hr : r.Fits 8) {chars : Bytes} (hchars : chars.mapM digitOfByte = none) :
    charsIn r chars = refuse .invalidEncoding := by
  induction chars generalizing r with
  | nil => cases hchars
  | cons c chars ih =>
    rw [charsIn]
    cases hc : digitOfByte c with
    | none =>
      rw [charIn_of_none hc]
      rfl
    | some d =>
      have hrest : chars.mapM digitOfByte = none := by
        rw [List.mapM_cons, hc] at hchars
        cases hmap : chars.mapM digitOfByte with
        | none => rfl
        | some ds => simp [hmap] at hchars
      rw [charIn_of_digit hr hc, ok_bind]
      dsimp only
      rw [ih (Register.Fits.afterDigit r d) hrest]
      rfl

/-! ### Texts -/

/-- The bytes of a text, character by character. -/
theorem utf8_cons (c : Char) (chars : List Char) :
    Text.utf8 (String.ofList (c :: chars)) =
      String.utf8EncodeChar c ++ Text.utf8 (String.ofList chars) := by
  simp only [Text.utf8, String.toUTF8_eq_toByteArray, String.toByteArray_ofList, List.utf8Encode,
    List.toList_data_toByteArray, List.flatMap_cons]

theorem digitOfByte_of_le : ∀ n < 256, 128 ≤ n → digitOfByte (UInt8.ofNat n) = none := by
  decide +kernel

theorem digit?_of_le {c : Char} (hc : 128 ≤ c.toNat) : digit? c = none := by
  rw [digit?, dif_neg (by omega), dif_neg (by omega)]

theorem digitOfByte_toUInt8 {c : Char} (hc : c.toNat < 128) :
    digitOfByte c.toUInt8 = digit? c := by
  have hcode : c.toUInt8.toNat = c.toNat :=
    Nat.mod_eq_of_lt (Nat.lt_trans hc (by decide : 128 < 256))
  rw [digitOfByte, hcode, Char.ofNat_toNat]

/-- The bytes of a character begin with one of 128 or more, unless it is a single one below. -/
theorem exists_utf8EncodeChar_of_le {c : Char} (hc : 128 ≤ c.toNat) :
    ∃ n rest, String.utf8EncodeChar c = UInt8.ofNat n :: rest ∧ n < 256 ∧ 128 ≤ n := by
  have hval : ¬c.val.toNat ≤ 0x7f := Nat.not_le.mpr hc
  unfold String.utf8EncodeChar
  dsimp only
  rw [if_neg hval]
  split_ifs
  · exact ⟨_, _, rfl, by omega, by omega⟩
  · exact ⟨_, _, rfl, by omega, by omega⟩
  · exact ⟨_, _, rfl, by omega, by omega⟩

/-- The first byte of a character is that of a digit exactly if the character is that digit, and
then it is the only one. -/
theorem exists_utf8EncodeChar (c : Char) :
    ∃ first rest, String.utf8EncodeChar c = first :: rest ∧ digitOfByte first = digit? c ∧
      (digit? c ≠ none → rest = []) := by
  by_cases hc : c.toNat < 128
  · exact ⟨_, [], Text.utf8EncodeChar_of_lt hc, digitOfByte_toUInt8 hc, fun _ ↦ rfl⟩
  · obtain ⟨n, rest, hbytes, hlt, hle⟩ := exists_utf8EncodeChar_of_le (Nat.not_lt.mp hc)
    have hnone := digit?_of_le (Nat.not_lt.mp hc)
    exact ⟨_, rest, hbytes, (digitOfByte_of_le n hlt hle).trans hnone.symm,
      fun hsome ↦ absurd hnone hsome⟩

/-- Reading byte by byte finds the digits that reading character by character finds. -/
theorem mapM_utf8 (text : String) :
    (Text.utf8 text).mapM digitOfByte = RoleKey.Base32.digitsOfText text := by
  rw [RoleKey.Base32.digitsOfText, ← String.ofList_toList (s := text)]
  rw [String.toList_ofList]
  induction text.toList with
  | nil => rfl
  | cons c chars ih =>
    obtain ⟨first, rest, hbytes, hfirst, hsingle⟩ := exists_utf8EncodeChar c
    rw [utf8_cons, hbytes, List.cons_append, List.mapM_cons, List.mapM_cons, hfirst]
    cases hc : digit? c with
    | none => rfl
    | some d =>
      rw [hsingle (by simp [hc]), List.nil_append, ih]

/-- Reading passes all guards. -/
theorem decode_eq (text : String) : decode text = lift (RoleKey.Base32.decode text) := by
  have hempty : Register.empty.Fits 8 := Register.fits_empty.mono (by decide)
  rw [RoleKey.Base32.decode, ← mapM_utf8, decode]
  cases hchars : (Text.utf8 text).mapM digitOfByte with
  | none =>
    rw [charsIn_of_none hempty hchars]
    rfl
  | some ds =>
    obtain ⟨out, hread, hbytes⟩ := charsIn_of_digits hempty hchars
    rw [hread, Option.bind_some, hbytes]
    generalize ds.foldl Register.afterDigit .empty = last
    have hspent : last.isSpent = true ↔ ¬(5 ≤ last.bits ∨ last.buffer ≠ 0) := by
      simp [Register.isSpent]
    change (if 5 ≤ last.bits ∨ last.buffer ≠ 0 then refuse .invalidEncoding else .ok out) = _
    by_cases hend : 5 ≤ last.bits ∨ last.buffer ≠ 0
    · rw [if_pos hend, if_neg (by rwa [hspent, not_not])]
      rfl
    · rw [if_neg hend, if_pos (hspent.mpr hend)]
      rfl

end Base32

end RoleKey.Guarded
