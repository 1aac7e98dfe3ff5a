import RoleKey.Proofs.Base32Regrouping

/-!
Base 32 is a bijection between byte strings and the texts that are read.

A character is read exactly as the digit that is written so (`digit?_eq_some_iff`), and a digit
string is read exactly if it is the one that writing its bytes gives (`bytesFrom_empty_iff`).
Together, `decode_eq_ok_iff` says that a text is read as the bytes whose text it is, and every
other text is refused with one and the same error (`decode_error`). `length_encode` counts the
characters of a text, and `digits_cons_cons` tells what the first two digits say of its bytes.
-/

set_option autoImplicit false
set_option relaxedAutoImplicit false

namespace RoleKey.Base32

/-! ### Characters -/

theorem digit?_eq_some_iff {c : Char} {d : Digit} : digit? c = some d ↔ c = letter d := by
  constructor
  · intro h
    unfold digit? at h
    split_ifs at h with hupper hlower
    · have hval : c.toNat - 65 = d.val := congrArg Fin.val (Option.some.inj h)
      rw [letter, if_pos (by omega), ← hval, Nat.add_sub_cancel' hupper.1, Char.ofNat_toNat]
    · have hval : c.toNat - 24 = d.val := congrArg Fin.val (Option.some.inj h)
      rw [letter, if_neg (by omega), ← hval, Nat.add_sub_cancel' (by omega), Char.ofNat_toNat]
  · rintro rfl
    exact digit?_letter d

theorem letter_injective : Function.Injective letter := by
  intro first second h
  exact Option.some.inj (by rw [← digit?_letter, h, digit?_letter])

theorem mapM_digit?_eq_some_iff {chars : List Char} {ds : List Digit} :
    chars.mapM digit? = some ds ↔ chars = ds.map letter := by
  induction chars generalizing ds with
  | nil => cases ds <;> simp
  | cons c rest ih =>
    cases ds with
    | nil => simp [Option.bind_eq_some_iff]
    | cons d others =>
      simp [Option.bind_eq_some_iff, digit?_eq_some_iff, ih]

theorem digitsOfText_eq_some_iff {text : String} {ds : List Digit} :
    digitsOfText text = some ds ↔ text = String.ofList (ds.map letter) := by
  rw [digitsOfText, mapM_digit?_eq_some_iff]
  constructor
  · intro h
    rw [← h, String.ofList_toList]
  · rintro rfl
    exact String.toList_ofList

/-! ### Texts -/

/-- From an empty register exactly the digits of a byte string are read as that byte string. -/
theorem bytesFrom_empty_iff {ds : List Digit} {data : Bytes} :
    bytesFrom .empty ds = some data ↔ ds = digits data := by
  obtain ⟨filler, hfiller, hdigits⟩ := digitBits_digits data
  rw [bytesFrom_eq_some_iff (Register.fits_empty.mono (by decide)), Register.held_empty,
    List.nil_append]
  constructor
  · rintro ⟨other, hother, h⟩
    apply digitBits_injective
    -- Both fillers fill up the same count of bits to a multiple of five.
    have hlength := length_of_digitBits_eq h
    have hlength' := length_of_digitBits_eq hdigits
    have hfill : other = filler := by omega
    rw [h, hdigits, hfill]
  · rintro rfl
    exact ⟨filler, hfiller, hdigits⟩

/-- A text is read exactly as the byte string whose text it is. -/
theorem decode_eq_ok_iff {text : String} {data : Bytes} :
    decode text = .ok data ↔ encode data = text := by
  have hread : decode text = .ok data ↔
      (digitsOfText text).bind (bytesFrom .empty) = some data := by
    unfold decode
    generalize (digitsOfText text).bind (bytesFrom .empty) = outcome
    cases outcome <;> simp
  rw [hread, Option.bind_eq_some_iff]
  constructor
  · rintro ⟨ds, hds, hdata⟩
    rw [digitsOfText_eq_some_iff.mp hds, bytesFrom_empty_iff.mp hdata, encode]
  · rintro rfl
    exact ⟨digits data, digitsOfText_eq_some_iff.mpr rfl, bytesFrom_empty_iff.mpr rfl⟩

theorem decode_encode (data : Bytes) : decode (encode data) = .ok data := decode_eq_ok_iff.mpr rfl

theorem encode_injective : Function.Injective encode := by
  intro first second h
  have hread := decode_encode first
  rw [h, decode_encode second] at hread
  exact (Except.ok.inj hread).symm

/-- A text that is not read is refused for its encoding. -/
theorem decode_error {text : String} {e : KeyError} (h : decode text = .error e) :
    e = .invalidEncoding := by
  unfold decode at h
  split at h
  · simp at h
  · exact (Except.error.inj h).symm

/-! ### Lengths -/

/-- There are as many digits as eight bits a byte take at five bits a digit. -/
theorem length_digits (data : Bytes) : (digits data).length = (8 * data.length + 4) / 5 := by
  obtain ⟨filler, hfiller, hbits⟩ := digitBits_digits data
  have hcount := length_of_digitBits_eq hbits
  omega

theorem length_encode (data : Bytes) : (encode data).length = (8 * data.length + 4) / 5 := by
  rw [encode, String.length_ofList, List.length_map, length_digits]

/-! ### The first digits -/

/-- The first two digits of a text begin with the first byte, and the second of them goes on with
the two top bits of the second byte. -/
theorem digits_cons_cons (first second : UInt8) (rest : Bytes) :
    ∃ hi lo others, digits (first :: second :: rest) = hi :: lo :: others ∧
      hi.val = first.toNat / 8 ∧ lo.val = first.toNat % 8 * 4 + second.toNat / 64 := by
  obtain ⟨filler, _, hbits⟩ := digitBits_digits (first :: second :: rest)
  have hlength := length_digits (first :: second :: rest)
  rw [List.length_cons, List.length_cons] at hlength
  obtain ⟨hi, lo, others, hdigits⟩ :
      ∃ hi lo others, digits (first :: second :: rest) = hi :: lo :: others := by
    match digits (first :: second :: rest), hlength with
    | hi :: lo :: others, _ => exact ⟨hi, lo, others, rfl⟩
    | [_], hlength => rw [List.length_singleton] at hlength; omega
    | [], hlength => rw [List.length_nil] at hlength; omega
  refine ⟨hi, lo, others, hdigits, ?_⟩
  have hfirst := first.toNat_lt
  have hsecond := second.toNat_lt
  have hmiddle : bitsOf 3 first.toNat ++ bitsOf 2 (second.toNat / 2 ^ 6) =
      bitsOf 5 (first.toNat % 8 * 4 + second.toNat / 64) := by
    rw [← bitsOf_mod (Nat.le_refl 3), ← bitsOf_mul_add 3 2 _ (by omega)]
    rfl
  rw [hdigits, digitBits_cons, digitBits_cons, byteBits_cons, byteBits_cons,
    bitsOf_add 5 3 first.toNat, bitsOf_add 2 6 second.toNat] at hbits
  simp only [List.append_assoc] at hbits
  obtain ⟨hhi, hbits⟩ := List.append_inj hbits (by simp)
  rw [← List.append_assoc (bitsOf 3 _), hmiddle] at hbits
  obtain ⟨hlo, -⟩ := List.append_inj hbits (by simp)
  have hhi' := bitsOf_eq_iff.mp hhi
  have hlo' := bitsOf_eq_iff.mp hlo
  have := hi.isLt
  have := lo.isLt
  constructor <;> omega

end RoleKey.Base32
