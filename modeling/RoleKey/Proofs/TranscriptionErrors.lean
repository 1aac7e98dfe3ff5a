import Mathlib.Data.List.Induction
import RoleKey.Proofs.LocalDifference
import RoleKey.Proofs.SeedTextInverse
import RoleKey.Recognition

/-!
Slips in copying a text by hand are noticed.

One character, or two that are next to each other, hold ten bits. A change of the bits of a body
within sixteen places changes the checksum (`Checksum.eq_of_feedBits_eq`), and a change within the
checksum alone is noticed as such. What remains are changes across the end of the body: the
checksum is written with its low byte first, so these are no bursts of the division, and
`Checksum.drop_wireBits_ne` goes through all of them. So no two bodies have texts that
differ within two neighbouring characters (`Envelope.write_eq_of_differWithin`), and a text that was
written and then miscopied is refused by every reader, and never for its role
(`miscopied_refused`).
-/

set_option autoImplicit false
set_option relaxedAutoImplicit false

namespace RoleKey

/-! ### Bursts -/

namespace Checksum

/-- Bit strings that differ within sixteen neighbouring places leave registers that differ. -/
theorem eq_of_feedBits_eq {r : UInt16} {first second : List Bool}
    (hdiffer : DifferWithin 16 first second) (h : feedBits r first = feedBits r second) :
    first = second := by
  obtain ⟨front, old, new, back, rfl, rfl, hlength, hwidth⟩ := hdiffer
  rw [feedBits_append, feedBits_append, feedBits_append, feedBits_append] at h
  rw [feedBits_right_injective hlength hwidth (feedBits_left_injective back h)]

/-- The bits of a checksum as it is written, the low byte first. -/
def wireBits (sum : UInt16) : List Bool := bitsOf 8 sum.toNat ++ bitsOf 8 (sum.toNat / 256)

theorem length_wireBits (sum : UInt16) : (wireBits sum).length = 16 := by simp [wireBits]

theorem byteBits_written (data : Bytes) : byteBits (written data) = wireBits (checksum data) := by
  have hbyte (n : ℕ) : bitsOf 8 (UInt8.ofNat n).toNat = bitsOf 8 n := by
    rw [UInt8.toNat_ofNat', bitsOf_mod (Nat.le_refl 8)]
  rw [written, leBytes, leBytes, leBytes, byteBits_cons, byteBits_cons, byteBits_nil,
    List.append_nil, hbyte, hbyte, wireBits]

theorem wireBits_xor (sum other : UInt16) :
    wireBits (sum ^^^ other) = List.zipWith xor (wireBits sum) (wireBits other) := by
  have hdiv : (sum.toNat ^^^ other.toNat) / 256 = (sum.toNat / 256) ^^^ (other.toNat / 256) :=
    Nat.xor_div_two_pow (n := 8)
  rw [wireBits, wireBits, wireBits, UInt16.toNat_xor, hdiv, bitsOf_xor, bitsOf_xor,
    List.zipWith_append (by simp)]

/-- The registers that may be there when the first bit that is set and `n` bits after it have come
in. -/
def registersAfter : ℕ → List UInt16
  | 0 => [generator]
  | n + 1 => (registersAfter n).flatMap fun r ↦ [feedBit r false, feedBit r true]

theorem feedBits_mem_registersAfter (bits : List Bool) :
    feedBits generator bits ∈ registersAfter bits.length := by
  induction bits using List.reverseRecOn with
  | nil => exact List.mem_singleton_self _
  | append_singleton front bit ih =>
    rw [feedBits_append, List.length_append]
    refine List.mem_flatMap.mpr ⟨_, ih, ?_⟩
    cases bit with
    | false => exact List.mem_cons_self
    | true => exact List.mem_cons_of_mem _ (List.mem_singleton_self _)

/-- A change that begins with the last bit but `n` of a body, `n` being below nine, changes its
written checksum behind the first `9 - n` bits. The checksum is no continuation of the body's bits,
since its low byte comes first, so that all changes are gone through. -/
theorem drop_wireBits_ne {n : ℕ} (hn : n < 9) {r : UInt16} (hr : r ∈ registersAfter n) :
    (wireBits r).drop (9 - n) ≠ List.replicate (7 + n) false := by
  have hall : ∀ n < 9, (registersAfter n).all
      fun r ↦ (wireBits r).drop (9 - n) ≠ List.replicate (7 + n) false := by
    decide +kernel
  exact of_decide_eq_true (List.all_eq_true.mp (hall n hn) r hr)

/-- Bits at the end of a body and at the start of its written checksum, ten of them together, never
change in a way that the rest of the checksum bears out. -/
theorem eq_of_drop_wireBits {r : UInt16} {old new : List Bool} {changed : ℕ}
    (hlength : old.length = new.length) (hpos : 0 < changed) (hwidth : old.length + changed ≤ 10)
    (h : (wireBits (feedBits r old)).drop changed = (wireBits (feedBits r new)).drop changed) :
    old = new := by
  set difference := List.zipWith xor old new with hdifference
  have hlong : difference.length = old.length := by simp [hdifference, hlength]
  have hsum : feedBits r old ^^^ feedBits r new = feedBits 0 difference := by
    rw [← feedBits_xor hlength, UInt16.xor_self]
  have hzero : (wireBits (feedBits 0 difference)).drop changed =
      List.replicate (16 - changed) false := by
    have hwire : ((wireBits (feedBits r old)).drop changed).length = 16 - changed := by
      rw [List.length_drop, length_wireBits]
    rw [← hsum, wireBits_xor, List.drop_zipWith, ← hwire, zipWith_xor_eq_replicate_iff (by rw [h])]
    exact h
  by_contra hne
  have hset : difference.count true ≠ 0 := fun hcount ↦ hne <|
    (zipWith_xor_eq_replicate_iff hlength).mp <| hlong ▸
      eq_replicate_false (List.count_eq_zero.mp hcount)
  -- The bits that agree at first leave nothing in an empty register.
  obtain ⟨zeros, rest, hsplit, -⟩ := exists_first_true (Nat.succ_pred_eq_of_ne_zero hset).symm
  have hplace : zeros + (rest.length + 1) = old.length := by simpa [hsplit] using hlong
  have hfeed : feedBits 0 difference = feedBits generator rest := by
    rw [hsplit, feedBits_zero_replicate, feedBits_cons]
    rfl
  refine drop_wireBits_ne (by omega) (feedBits_mem_registersAfter rest) ?_
  have hmore : 9 - rest.length = changed + (9 - rest.length - changed) := by omega
  rw [hmore, ← List.drop_drop, ← hfeed, hzero, List.drop_replicate]
  congr 1
  omega

end Checksum

/-! ### Texts that are close to each other -/

namespace Envelope

open Checksum

/-- Sealed bytes whose bits differ within ten neighbouring places, also where these lie across the
body and its checksum, are the same. -/
theorem sealed_eq_of_differWithin {first second : Bytes} {filler : ℕ}
    (h : DifferWithin 10 (byteBits (sealed first) ++ List.replicate filler false)
      (byteBits (sealed second) ++ List.replicate filler false)) : first = second := by
  have hlength : first.length = second.length := by
    have := h.length_eq
    simp only [List.length_append, length_byteBits, length_sealed, List.length_replicate] at this
    omega
  rw [sealed, sealed, byteBits_append, byteBits_append, List.append_assoc, List.append_assoc] at h
  apply byteBits_injective
  obtain ⟨hbody, htail⟩ | hsame | hacross := h.append_cases (by simp [hlength])
  · -- The checksums agree, so a change of the body would be a burst that they miss.
    have hwritten := byteBits_injective (List.append_cancel_right htail)
    have hsum : checksum first = checksum second := by
      rw [← ofNat_leNat_written, hwritten, ofNat_leNat_written]
    rw [checksum_eq_feedBits, checksum_eq_feedBits] at hsum
    exact eq_of_feedBits_eq (hbody.mono (by decide)) hsum
  · exact hsame
  · obtain ⟨front, old, new, old', new', back, hfirst, hsecond, hfirst', hsecond', hold, hold',
      hpos, hwidth⟩ := hacross
    rw [byteBits_written, checksum_eq_feedBits, hfirst, feedBits_append] at hfirst'
    rw [byteBits_written, checksum_eq_feedBits, hsecond, feedBits_append] at hsecond'
    have hrest : (wireBits (feedBits (feedBits 0 front) old)).drop old'.length =
        (wireBits (feedBits (feedBits 0 front) new)).drop old'.length := by
      have hdrop := congrArg (List.drop old'.length) hfirst'
      have hdrop' := congrArg (List.drop old'.length) hsecond'
      rw [List.drop_left, List.drop_append_of_le_length (by rw [length_wireBits]; omega)] at hdrop
      rw [hold', List.drop_left,
        List.drop_append_of_le_length (by rw [length_wireBits]; omega), ← hdrop, ← hold'] at hdrop'
      exact (List.append_cancel_right hdrop').symm
    rw [hfirst, hsecond, eq_of_drop_wireBits hold hpos hwidth hrest]

/-- Bodies whose texts differ within two neighbouring characters are the same. -/
theorem write_eq_of_differWithin {first second : Bytes}
    (h : DifferWithin 2 (write first).toList (write second).toList) : first = second := by
  rw [write, write, Base32.encode, Base32.encode, String.toList_ofList, String.toList_ofList] at h
  have hdigits := h.of_map Base32.letter_injective
  have hbits : DifferWithin 10 (digitBits (Base32.digits (sealed first)))
      (digitBits (Base32.digits (sealed second))) := hdigits.blockBits
  obtain ⟨filler, hfiller, hfirst⟩ := Base32.digitBits_digits (sealed first)
  obtain ⟨filler', hfiller', hsecond⟩ := Base32.digitBits_digits (sealed second)
  -- Texts of one length have the same count of bits to fill up.
  have hlength := hdigits.length_eq
  have hcount := congrArg List.length hfirst
  have hcount' := congrArg List.length hsecond
  simp only [length_digitBits, List.length_append, length_byteBits, List.length_replicate]
    at hcount hcount'
  have hsame : filler' = filler := by omega
  rw [hfirst, hsecond, hsame] at hbits
  exact sealed_eq_of_differWithin hbits

end Envelope

/-! ### Miscopied texts -/

/-- The text of a key or of a seed, of whatever role. -/
def Written (text : String) : Prop :=
  (∃ roleByte payload, KeyText.encode roleByte payload = .ok text) ∨
    ∃ roleByte material, SeedText.encode roleByte material = .ok text

/-- A copy in which one character or two that are next to each other have become others. -/
def Miscopied (text copy : String) : Prop :=
  copy ≠ text ∧ DifferWithin 2 text.toList copy.toList

theorem Written.exists_body {text : String} (h : Written text) :
    ∃ body, Envelope.write body = text := by
  rcases h with ⟨roleByte, payload, htext⟩ | ⟨roleByte, material, htext⟩
  · cases hrole : Role.ofByte roleByte with
    | error e => simp [KeyText.encode, hrole, bind, Except.bind] at htext
    | ok role =>
      obtain rfl := Role.ofByte_eq_ok_iff.mp hrole
      rw [KeyText.encode_byte] at htext
      exact ⟨_, Except.ok.inj htext⟩
  · obtain ⟨role, -, -, -, hwrite⟩ := SeedText.encode_eq_ok_iff.mp htext
    exact ⟨_, hwrite⟩

/-- A text that was written and then miscopied is no envelope any more. -/
theorem read_miscopied {text copy : String} (htext : Written text) (hcopy : Miscopied text copy) :
    Envelope.read copy = .error .invalidChecksum ∨
      Envelope.read copy = .error .invalidEncoding := by
  obtain ⟨body, rfl⟩ := htext.exists_body
  obtain ⟨hother, hdiffer⟩ := hcopy
  cases hread : Envelope.read copy with
  | error e => exact (Envelope.read_error hread).symm.imp (congrArg _) (congrArg _)
  | ok read =>
    obtain ⟨-, rfl⟩ := Envelope.read_eq_ok_iff.mp hread
    exact absurd (congrArg Envelope.write (Envelope.write_eq_of_differWithin hdiffer).symm) hother

/-- A text that was written and then miscopied is refused for its checksum or its encoding, under
every role as key material and as a seed as well, and no check on texts holds of it. -/
theorem miscopied_refused {text copy : String} (htext : Written text)
    (hcopy : Miscopied text copy) :
    (∀ role : Role, KeyText.decode role.byte copy = .error .invalidChecksum ∨
      KeyText.decode role.byte copy = .error .invalidEncoding) ∧
    (SeedText.decode copy = .error .invalidChecksum ∨
      SeedText.decode copy = .error .invalidEncoding) ∧
    Recognition.isEncoding copy = false ∧ Recognition.isPublicKey copy = false ∧
    ∀ role : Role, Recognition.isPublicKeyOf role copy = false := by
  have hread := read_miscopied htext hcopy
  have hkey (role : Role) : KeyText.decode role.byte copy = .error .invalidChecksum ∨
      KeyText.decode role.byte copy = .error .invalidEncoding :=
    hread.imp (KeyText.decode_of_read_error role) (KeyText.decode_of_read_error role)
  have hpublic (role : Role) : Recognition.isPublicKeyOf role copy = false := by
    rcases hkey role with h | h <;> simp [Recognition.isPublicKeyOf, h]
  refine ⟨hkey, hread.imp SeedText.decode_of_read_error SeedText.decode_of_read_error, ?_, ?_,
    hpublic⟩
  · rcases hread with h | h <;> simp [Recognition.isEncoding, h, Except.toOption]
  · rw [Recognition.isPublicKey]
    cases KeyText.roleOf copy with
    | none => rfl
    | some role =>
      dsimp only
      rw [hpublic role, Bool.and_false]

/-- The published text of a user's public key with its first two characters swapped. -/
theorem miscopied_refused_swap :
    Written KeyText.publishedUserText ∧
    Miscopied KeyText.publishedUserText
      "CUK5N7N66OBOINFXAYC2ACJQYFSOD4VYNU6APEJTAVFZB2SVHLKGEW7L" ∧
    Recognition.isPublicKey "CUK5N7N66OBOINFXAYC2ACJQYFSOD4VYNU6APEJTAVFZB2SVHLKGEW7L" = false := by
  have hwritten : Written KeyText.publishedUserText := by
    refine Or.inl ⟨Role.user.byte, KeyText.publishedUserKey, ?_⟩
    rw [KeyText.encode_byte, KeyText.write_publishedUserKey]
  have hmiscopied : Miscopied KeyText.publishedUserText
      "CUK5N7N66OBOINFXAYC2ACJQYFSOD4VYNU6APEJTAVFZB2SVHLKGEW7L" := by
    refine ⟨by decide +kernel, [], ['U', 'C'], ['C', 'U'],
      "K5N7N66OBOINFXAYC2ACJQYFSOD4VYNU6APEJTAVFZB2SVHLKGEW7L".toList, ?_, ?_, rfl, by decide⟩
    · decide +kernel
    · decide +kernel
  exact ⟨hwritten, hmiscopied, (miscopied_refused hwritten hmiscopied).2.2.2.1⟩

end RoleKey
