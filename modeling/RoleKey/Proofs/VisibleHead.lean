import RoleKey.KeyText
import RoleKey.Proofs.EnvelopeBijection

/-!
The first two characters of a text and the bytes that they come from.

`toList_write` cuts the first two characters off the text of a body: they hold its whole first byte
and the two top bits of the byte behind it. So the role that a text claims by its first characters
is the one that its first byte claims (`roleOf_encode`, `roleOf_write`), whatever comes behind.
-/

set_option autoImplicit false
set_option relaxedAutoImplicit false

namespace RoleKey

/-! ### The two parts of a byte -/

/-- The mask clears the low three bits. -/
theorem toNat_and_tagMask (b : UInt8) : (b &&& tagMask).toNat = b.toNat / 8 * 8 := by
  have hmask : ∀ n < 256, n &&& 248 = n / 8 * 8 := by decide +kernel
  rw [UInt8.toNat_and]
  exact hmask b.toNat b.toNat_lt

theorem toNat_and_seven (b : UInt8) : (b &&& 0x07).toNat = b.toNat % 8 :=
  Nat.and_two_pow_sub_one_eq_mod b.toNat 3

/-- Two bytes without a common bit are joined by adding them. -/
theorem toNat_or_eq_add {high low : UInt8} {top n : ℕ} (hhigh : high.toNat = top * 2 ^ n)
    (hlow : low.toNat < 2 ^ n) : (high ||| low).toNat = top * 2 ^ n + low.toNat := by
  have hjoin := Nat.shiftLeft_add_eq_or_of_lt hlow top
  rw [Nat.shiftLeft_eq] at hjoin
  rw [UInt8.toNat_or, hhigh, hjoin]

/-! ### The first characters -/

namespace Envelope

/-- Behind the first byte there is always another one, since the checksum is behind it. -/
theorem exists_append_written (payload body : Bytes) :
    ∃ second others, payload ++ Checksum.written body = second :: others := by
  refine List.exists_cons_of_ne_nil fun hnil ↦ ?_
  have := congrArg List.length hnil
  simp at this

/-- The first character of a text is the tag of the first byte, and the second goes on with its low
bits and the two top bits of the byte behind it. -/
theorem toList_write (first : UInt8) (payload : Bytes) :
    ∃ hi lo rest, (write (first :: payload)).toList =
        Base32.letter hi :: Base32.letter lo :: rest ∧
      hi.val = first.toNat / 8 ∧ lo.val / 4 = first.toNat % 8 ∧
      ∀ second others, payload = second :: others → lo.val % 4 = second.toNat / 64 := by
  obtain ⟨second, others, hsealed⟩ := exists_append_written payload (first :: payload)
  obtain ⟨hi, lo, rest, hdigits, hhi, hlo⟩ := Base32.digits_cons_cons first second others
  have hsecond := second.toNat_lt
  refine ⟨hi, lo, rest.map Base32.letter, ?_, hhi, by omega, ?_⟩
  · rw [write, Base32.encode, String.toList_ofList, sealed, List.cons_append, hsealed, hdigits]
    rfl
  · rintro second' others' rfl
    have hsame := (List.cons.inj hsealed).1
    rw [hsame]
    omega

end Envelope

namespace KeyText

/-- Two digits give back the byte that they begin with. -/
theorem firstByte_eq {hi lo : Base32.Digit} {first : UInt8} (hhi : hi.val = first.toNat / 8)
    (hlo : lo.val / 4 = first.toNat % 8) : firstByte hi lo = first := by
  have hfirst := first.toNat_lt
  have hlo' := lo.isLt
  have hhigh : (UInt8.ofNat hi.val <<< 3).toNat = hi.val * 2 ^ 3 := by
    simp [UInt8.toNat_shiftLeft, Nat.shiftLeft_eq]
    omega
  have hlow : (UInt8.ofNat lo.val >>> 2).toNat = lo.val / 4 := by
    simp [UInt8.toNat_shiftRight, Nat.shiftRight_eq_div_pow]
    omega
  apply UInt8.toNat_inj.mp
  rw [firstByte, toNat_or_eq_add hhigh (by omega), hlow]
  omega

/-- The role that the first two characters claim is the one that the first byte claims, whatever
bytes come behind. -/
theorem roleOf_encode (first second : UInt8) (rest : Bytes) :
    roleOf (Base32.encode (first :: second :: rest)) = roleOfByte first := by
  obtain ⟨hi, lo, others, hdigits, hhi, hlo⟩ := Base32.digits_cons_cons first second rest
  have hsecond := second.toNat_lt
  rw [roleOf, Base32.encode, String.toList_ofList, hdigits]
  simp only [List.map_cons, Base32.digit?_letter, Option.bind_eq_bind, Option.bind_some]
  rw [firstByte_eq hhi (by omega)]

theorem roleOf_write (first : UInt8) (payload : Bytes) :
    roleOf (Envelope.write (first :: payload)) = roleOfByte first := by
  obtain ⟨second, others, hsealed⟩ := Envelope.exists_append_written payload (first :: payload)
  rw [Envelope.write, Envelope.sealed, List.cons_append, hsealed, roleOf_encode]

end KeyText

end RoleKey
