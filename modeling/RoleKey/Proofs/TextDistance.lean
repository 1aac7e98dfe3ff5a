import RoleKey.Proofs.CodewordWeight
import RoleKey.Proofs.TranscriptionErrors

/-!
Texts of bodies that differ are at least four bits apart.

`bitDistance` counts the bits in which the digits of two texts differ. A body with its checksum
behind it, high byte first, is a codeword (`isCodeword_codeword`), and so is the difference of two
of them. A text has the low byte first, which moves bits and changes none, and its filler is the
same for all texts of its length; so texts are as far apart as codewords (`bitDistance_write`). What
is known of the bits set in a codeword then says that the distance is even, and four at least up to
4095 bytes (`even_bitDistance`, `four_le_bitDistance`). `scattered_errors_refused` says the same of
readers: a copy in which an odd count of bits has changed, or two bits wherever they stand, is read
by none of them.
-/

set_option autoImplicit false
set_option relaxedAutoImplicit false

namespace RoleKey

/-! ### Distances of bit strings -/

/-- The count of places at which two bit strings differ. -/
def distance (first second : List Bool) : ℕ := (List.zipWith xor first second).count true

theorem distance_self (bits : List Bool) : distance bits bits = 0 := by
  have hsame := (zipWith_xor_eq_replicate_iff (rfl : bits.length = bits.length)).mpr rfl
  rw [distance, hsame]
  exact List.count_eq_zero.mpr fun htrue ↦ Bool.noConfusion (List.eq_of_mem_replicate htrue)

theorem distance_eq_zero_iff {first second : List Bool} (hlength : first.length = second.length) :
    distance first second = 0 ↔ first = second := by
  constructor
  · intro h
    have hzero := eq_replicate_false (List.count_eq_zero.mp h)
    rw [List.length_zipWith, ← hlength, Nat.min_self] at hzero
    exact (zipWith_xor_eq_replicate_iff hlength).mp hzero
  · rintro rfl
    exact distance_self first

theorem distance_append {first second : List Bool} (hlength : first.length = second.length)
    (first' second' : List Bool) :
    distance (first ++ first') (second ++ second') =
      distance first second + distance first' second' := by
  rw [distance, List.zipWith_append hlength, List.count_append]
  rfl

namespace Checksum

/-! ### Codewords of bodies -/

/-- The bits of a body and behind them those of its checksum, the high byte first. -/
def codeword (body : Bytes) : List Bool := byteBits body ++ registerBits (checksum body)

theorem length_codeword (body : Bytes) : (codeword body).length = 8 * (body.length + 2) := by
  rw [codeword, List.length_append, length_byteBits, registerBits, length_bitsOf]
  omega

theorem aligned_registerBits (r : UInt16) : aligned (registerBits r) = r := by
  have hlength : (registerBits r).length = 16 := length_bitsOf 16 _
  apply UInt16.toNat_inj.mp
  rw [toNat_aligned (by omega), hlength, registerBits, valueOf_bitsOf, Nat.mod_eq_of_lt r.toNat_lt]
  exact Nat.mul_one _

/-- A register that takes in its own bits is left empty. -/
theorem feedBits_registerBits (r : UInt16) : feedBits r (registerBits r) = 0 := by
  have hlength : (registerBits r).length = 16 := length_bitsOf 16 _
  rw [feedBits_eq_stepBits r (by omega), aligned_registerBits, UInt16.xor_self]
  exact stepBits_eq_zero_iff.mpr rfl

theorem isCodeword_codeword (body : Bytes) : IsCodeword (codeword body) := by
  rw [IsCodeword, codeword, feedBits_append, ← checksum_eq_feedBits, feedBits_registerBits]

/-- The difference of two codewords is a codeword. -/
theorem IsCodeword.zipWith_xor {first second : List Bool} (hfirst : IsCodeword first)
    (hsecond : IsCodeword second) (hlength : first.length = second.length) :
    IsCodeword (List.zipWith xor first second) := by
  have hxor := feedBits_xor hlength 0 0
  rw [hfirst, hsecond] at hxor
  exact hxor

theorem isCodeword_difference {first second : Bytes} (hlength : first.length = second.length) :
    IsCodeword (List.zipWith xor (codeword first) (codeword second)) :=
  (isCodeword_codeword first).zipWith_xor (isCodeword_codeword second)
    (by rw [length_codeword, length_codeword, hlength])

/-- Codewords of bodies of one length differ in an even count of bits. -/
theorem even_distance_codeword {first second : Bytes} (hlength : first.length = second.length) :
    Even (distance (codeword first) (codeword second)) :=
  even_count_of_codeword (isCodeword_difference hlength)

/-- Codewords of up to 4095 bytes do not differ in exactly two bits. -/
theorem distance_codeword_ne_two {first second : Bytes} (hlength : first.length = second.length)
    (hshort : first.length + 2 ≤ 4095) : distance (codeword first) (codeword second) ≠ 2 := by
  refine count_ne_two_of_codeword (isCodeword_difference hlength) ?_
  rw [List.length_zipWith, length_codeword, length_codeword, ← hlength, Nat.min_self]
  omega

theorem distance_codeword_eq_zero_iff {first second : Bytes}
    (hlength : first.length = second.length) :
    distance (codeword first) (codeword second) = 0 ↔ first = second := by
  rw [distance_eq_zero_iff (by rw [length_codeword, length_codeword, hlength])]
  constructor
  · intro h
    exact byteBits_injective (List.append_inj h (by simp [hlength])).1
  · exact congrArg codeword

/-- Written with the low byte first, checksums differ in the same bits in another order. -/
theorem distance_wireBits (sum other : UInt16) :
    distance (wireBits sum) (wireBits other) = distance (registerBits sum) (registerBits other) := by
  have hbytes (n : ℕ) : bitsOf 16 n = bitsOf 8 (n / 2 ^ 8) ++ bitsOf 8 n := bitsOf_add 8 8 n
  rw [wireBits, wireBits, distance_append (by simp), registerBits, registerBits, hbytes, hbytes,
    distance_append (by simp), Nat.add_comm]
  rfl

end Checksum

/-! ### Distances of texts -/

/-- The count of bits in which the digits of two texts of one length differ, if every character of
both is a digit. -/
def bitDistance (text copy : String) : Option ℕ := do
  let digits ← Base32.digitsOfText text
  let others ← Base32.digitsOfText copy
  return distance (digitBits digits) (digitBits others)

namespace Envelope

open Checksum

theorem length_eq_of_length_write {first second : Bytes}
    (h : (write first).length = (write second).length) : first.length = second.length := by
  rw [length_write, length_write] at h
  omega

theorem distance_sealed {first second : Bytes} (hlength : first.length = second.length) :
    distance (byteBits (sealed first)) (byteBits (sealed second)) =
      distance (codeword first) (codeword second) := by
  rw [sealed, sealed, byteBits_append, byteBits_append, byteBits_written, byteBits_written,
    distance_append (by simp [hlength]), distance_wireBits, ← distance_append (by simp [hlength])]
  rfl

/-- Texts of bodies of one length are as far apart as the codewords of the bodies. -/
theorem bitDistance_write {first second : Bytes} (hlength : first.length = second.length) :
    bitDistance (write first) (write second) =
      some (distance (codeword first) (codeword second)) := by
  have hdigits (body : Bytes) :
      Base32.digitsOfText (write body) = some (Base32.digits (sealed body)) :=
    Base32.digitsOfText_eq_some_iff.mpr rfl
  obtain ⟨filler, hfiller, hfirst⟩ := Base32.digitBits_digits (sealed first)
  obtain ⟨filler', hfiller', hsecond⟩ := Base32.digitBits_digits (sealed second)
  -- Both texts have the same count of digits, and so of bits to fill up.
  have hcount := congrArg List.length hfirst
  have hcount' := congrArg List.length hsecond
  simp only [length_digitBits, List.length_append, length_byteBits, List.length_replicate,
    length_sealed] at hcount hcount'
  have hsame : filler' = filler := by omega
  rw [bitDistance, hdigits, hdigits]
  change some (distance _ _) = _
  rw [hfirst, hsecond, hsame, distance_append (by simp [hlength]), distance_self, Nat.add_zero,
    distance_sealed hlength]

/-- Texts of one length differ in an even count of bits. -/
theorem even_bitDistance {first second : Bytes} {count : ℕ}
    (hlength : (write first).length = (write second).length)
    (h : bitDistance (write first) (write second) = some count) : Even count := by
  have hbodies := length_eq_of_length_write hlength
  rw [bitDistance_write hbodies, Option.some.injEq] at h
  exact h ▸ even_distance_codeword hbodies

/-- Texts of one length, of two bodies that fit into 4095 bytes with their checksums, differ in four
bits at least. -/
theorem four_le_bitDistance {first second : Bytes} {count : ℕ}
    (hlength : (write first).length = (write second).length) (hshort : first.length + 2 ≤ 4095)
    (h : bitDistance (write first) (write second) = some count) (hother : first ≠ second) :
    4 ≤ count := by
  have hbodies := length_eq_of_length_write hlength
  rw [bitDistance_write hbodies, Option.some.injEq] at h
  obtain ⟨half, hhalf⟩ := even_distance_codeword hbodies
  have hzero := mt (distance_codeword_eq_zero_iff hbodies).mp hother
  have htwo := distance_codeword_ne_two hbodies hshort
  omega

theorem bitDistance_self {body : Bytes} {count : ℕ}
    (h : bitDistance (write body) (write body) = some count) : count = 0 := by
  rw [bitDistance_write rfl, Option.some.injEq, distance_self] at h
  exact h.symm

end Envelope

/-! ### Scattered errors -/

/-- A copy of a text, of the same length and with digits for characters, in which an odd count of
bits has changed is refused for its checksum or its encoding, under every role as key material and
as a seed; so is one in which two bits have changed, wherever they stand, if body and checksum are
not more than 4095 bytes. -/
theorem scattered_errors_refused {body : Bytes} {copy : String} {count : ℕ}
    (hlength : copy.length = (Envelope.write body).length)
    (hdistance : bitDistance (Envelope.write body) copy = some count)
    (hcount : Odd count ∨ count = 2 ∧ body.length + 2 ≤ 4095) :
    (∀ role : Role, KeyText.decode role.byte copy = .error .invalidChecksum ∨
      KeyText.decode role.byte copy = .error .invalidEncoding) ∧
    (SeedText.decode copy = .error .invalidChecksum ∨
      SeedText.decode copy = .error .invalidEncoding) := by
  have hread : Envelope.read copy = .error .invalidChecksum ∨
      Envelope.read copy = .error .invalidEncoding := by
    cases hopened : Envelope.read copy with
    | error e => exact (Envelope.read_error hopened).symm.imp (congrArg _) (congrArg _)
    | ok other =>
      obtain ⟨-, rfl⟩ := Envelope.read_eq_ok_iff.mp hopened
      exfalso
      rcases hcount with hodd | ⟨rfl, hshort⟩
      · exact Nat.not_odd_iff_even.mpr (Envelope.even_bitDistance hlength.symm hdistance) hodd
      · have hother : body ≠ other := by
          rintro rfl
          exact absurd (Envelope.bitDistance_self hdistance) (by decide)
        have := Envelope.four_le_bitDistance hlength.symm hshort hdistance hother
        omega
  exact ⟨fun role ↦ hread.imp (KeyText.decode_of_read_error role)
    (KeyText.decode_of_read_error role),
    hread.imp SeedText.decode_of_read_error SeedText.decode_of_read_error⟩

/-- The published text of a user's public key, with one bit of its first character changed, and with
that bit and one of its last character changed. -/
theorem scattered_errors_refused_user_key :
    bitDistance (Envelope.write (Role.user.byte :: KeyText.publishedUserKey))
      "VCK5N7N66OBOINFXAYC2ACJQYFSOD4VYNU6APEJTAVFZB2SVHLKGEW7L" = some 1 ∧
    (SeedText.decode "VCK5N7N66OBOINFXAYC2ACJQYFSOD4VYNU6APEJTAVFZB2SVHLKGEW7L" =
        .error .invalidChecksum ∨
      SeedText.decode "VCK5N7N66OBOINFXAYC2ACJQYFSOD4VYNU6APEJTAVFZB2SVHLKGEW7L" =
        .error .invalidEncoding) ∧
    bitDistance (Envelope.write (Role.user.byte :: KeyText.publishedUserKey))
      "VCK5N7N66OBOINFXAYC2ACJQYFSOD4VYNU6APEJTAVFZB2SVHLKGEW7K" = some 2 ∧
    (Role.user.byte :: KeyText.publishedUserKey).length + 2 ≤ 4095 ∧
    (KeyText.decode Role.user.byte "VCK5N7N66OBOINFXAYC2ACJQYFSOD4VYNU6APEJTAVFZB2SVHLKGEW7K" =
        .error .invalidChecksum ∨
      KeyText.decode Role.user.byte "VCK5N7N66OBOINFXAYC2ACJQYFSOD4VYNU6APEJTAVFZB2SVHLKGEW7K" =
        .error .invalidEncoding) := by
  have hone : bitDistance (Envelope.write (Role.user.byte :: KeyText.publishedUserKey))
      "VCK5N7N66OBOINFXAYC2ACJQYFSOD4VYNU6APEJTAVFZB2SVHLKGEW7L" = some 1 := by
    rw [KeyText.write_publishedUserKey]
    decide +kernel
  have htwo : bitDistance (Envelope.write (Role.user.byte :: KeyText.publishedUserKey))
      "VCK5N7N66OBOINFXAYC2ACJQYFSOD4VYNU6APEJTAVFZB2SVHLKGEW7K" = some 2 := by
    rw [KeyText.write_publishedUserKey]
    decide +kernel
  have hlength (copy : String) (hcopy : copy.length = 56) :
      copy.length = (Envelope.write (Role.user.byte :: KeyText.publishedUserKey)).length := by
    rw [hcopy, Envelope.length_write]
    rfl
  exact ⟨hone, (scattered_errors_refused (hlength _ rfl) hone (Or.inl (by decide))).2,
    htwo, by decide, (scattered_errors_refused (hlength _ rfl) htwo
      (Or.inr ⟨rfl, by decide⟩)).1 .user⟩

end RoleKey
