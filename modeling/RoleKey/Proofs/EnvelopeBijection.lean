import RoleKey.Envelope
import RoleKey.Proofs.Base32Bijection
import RoleKey.Proofs.ChecksumRegister

/-!
An envelope is opened exactly as the body that was closed in it.

The two bytes of a checksum spell it and nothing else (`leNat_leBytes`, `leBytes_leNat`), so sealed
bytes open exactly to the body that was sealed (`opened_eq_ok_iff`). With the bijection of base 32,
`read_eq_ok_iff` says that a text is read exactly as the body, of one byte at least, whose text it
is; `read_error` lists the two refusals.
-/

set_option autoImplicit false
set_option relaxedAutoImplicit false

namespace RoleKey

/-! ### Numbers in bytes -/

theorem leNat_lt (bytes : Bytes) : leNat bytes < 256 ^ bytes.length := by
  induction bytes with
  | nil => decide
  | cons b rest ih =>
    have hb := b.toNat_lt
    rw [leNat, List.length_cons, Nat.pow_succ]
    omega

theorem leBytes_leNat (bytes : Bytes) : leBytes bytes.length (leNat bytes) = bytes := by
  induction bytes with
  | nil => rfl
  | cons b rest ih =>
    have hb := b.toNat_lt
    have hlow : UInt8.ofNat (b.toNat + 256 * leNat rest) = b := by
      apply UInt8.toNat_inj.mp
      rw [UInt8.toNat_ofNat']
      omega
    have hhigh : (b.toNat + 256 * leNat rest) / 256 = leNat rest := by omega
    rw [leNat, List.length_cons, leBytes, hlow, hhigh, ih]

theorem leNat_leBytes (n value : ℕ) : leNat (leBytes n value) = value % 256 ^ n := by
  induction n generalizing value with
  | zero => simp [leBytes, leNat, Nat.mod_one]
  | succ n ih =>
    have hpow : 256 ^ (n + 1) = 256 * 256 ^ n := Nat.pow_succ'
    rw [leBytes, leNat, ih, UInt8.toNat_ofNat', hpow, Nat.mod_mul]

/-! ### Checksums -/

namespace Checksum

@[simp] theorem length_written (data : Bytes) : (written data).length = 2 := length_leBytes 2 _

/-- The two bytes that are written spell the checksum. -/
theorem ofNat_leNat_written (data : Bytes) :
    UInt16.ofNat (leNat (written data)) = checksum data := by
  have hlt : (checksum data).toNat < 256 ^ 2 := (checksum data).toNat_lt
  rw [written, leNat_leBytes, Nat.mod_eq_of_lt hlt, UInt16.ofNat_toNat]

/-- Two bytes that spell the checksum are the ones that are written. -/
theorem eq_written {data stored : Bytes} (hlength : stored.length = 2)
    (h : checksum data = UInt16.ofNat (leNat stored)) : stored = written data := by
  have hlt : leNat stored < 2 ^ 16 := by
    have := leNat_lt stored
    rwa [hlength] at this
  rw [written, h, UInt16.toNat_ofNat', Nat.mod_eq_of_lt hlt, ← hlength, leBytes_leNat]

end Checksum

/-! ### Envelopes -/

namespace Envelope

open Checksum

@[simp] theorem length_sealed (body : Bytes) : (sealed body).length = body.length + 2 := by
  rw [sealed, List.length_append, length_written]

theorem sealed_injective : Function.Injective sealed := by
  intro first second h
  have hlength := congrArg List.length h
  rw [length_sealed, length_sealed] at hlength
  exact (List.append_inj h (by omega)).1

/-- Opening, check by check: the length, and then the checksum. -/
theorem opened_eq (raw : Bytes) : opened raw =
    if raw.length < 3 then .error .invalidEncoding
    else if checksum (raw.take (raw.length - 2)) =
        UInt16.ofNat (leNat (raw.drop (raw.length - 2))) then .ok (raw.take (raw.length - 2))
      else .error .invalidChecksum := by
  unfold opened validate minimumLength checksumLength
  split_ifs with hshort hsum
  · rfl
  · simp [hsum, Except.map]
  · simp [hsum, Except.map]

theorem opened_sealed {body : Bytes} (hbody : body ≠ []) : opened (sealed body) = .ok body := by
  have hpos := List.length_pos_iff.mpr hbody
  have hfront : (sealed body).take ((sealed body).length - 2) = body := by
    rw [length_sealed, Nat.add_sub_cancel, sealed, List.take_left]
  have hback : (sealed body).drop ((sealed body).length - 2) = written body := by
    rw [length_sealed, Nat.add_sub_cancel, sealed, List.drop_left]
  rw [opened_eq, hfront, hback, ofNat_leNat_written, if_pos rfl, length_sealed,
    if_neg (by omega)]

/-- Sealed bytes open exactly to the body, of one byte at least, that was sealed. -/
theorem opened_eq_ok_iff {raw body : Bytes} :
    opened raw = .ok body ↔ body ≠ [] ∧ sealed body = raw := by
  constructor
  · intro h
    rw [opened_eq] at h
    split_ifs at h with hshort hsum
    have hbody := Except.ok.inj h
    have hstored := eq_written (by rw [List.length_drop]; omega) hsum
    rw [hbody] at hstored
    refine ⟨?_, ?_⟩
    · rintro rfl
      have := congrArg List.length hbody
      rw [List.length_take, List.length_nil] at this
      omega
    · rw [sealed, ← hstored, ← hbody, List.take_append_drop]
  · rintro ⟨hbody, rfl⟩
    exact opened_sealed hbody

theorem opened_error {raw : Bytes} {e : KeyError} (h : opened raw = .error e) :
    e = .invalidEncoding ∨ e = .invalidChecksum := by
  rw [opened_eq] at h
  split_ifs at h <;> simp_all

/-! ### Texts -/

theorem read_encode (raw : Bytes) : read (Base32.encode raw) = opened raw := by
  rw [read, Base32.decode_encode]
  rfl

theorem read_write {body : Bytes} (hbody : body ≠ []) : read (write body) = .ok body := by
  rw [write, read_encode, opened_sealed hbody]

/-- A text is read exactly as the body, of one byte at least, whose text it is. -/
theorem read_eq_ok_iff {text : String} {body : Bytes} :
    read text = .ok body ↔ body ≠ [] ∧ write body = text := by
  constructor
  · intro h
    cases hraw : Base32.decode text with
    | error e => simp [read, hraw, bind, Except.bind] at h
    | ok raw =>
      rw [← Base32.decode_eq_ok_iff.mp hraw] at h ⊢
      rw [read_encode, opened_eq_ok_iff] at h
      exact ⟨h.1, by rw [write, h.2]⟩
  · rintro ⟨hbody, rfl⟩
    exact read_write hbody

/-- A text that is not read is no base 32 of three bytes or more, or has another checksum. -/
theorem read_error {text : String} {e : KeyError} (h : read text = .error e) :
    e = .invalidEncoding ∨ e = .invalidChecksum := by
  cases hraw : Base32.decode text with
  | error reason =>
    rw [read, hraw] at h
    rw [← Except.error.inj h]
    exact Or.inl (Base32.decode_error hraw)
  | ok raw =>
    rw [← Base32.decode_eq_ok_iff.mp hraw, read_encode] at h
    exact opened_error h

theorem write_injective : Function.Injective write :=
  fun _ _ h ↦ sealed_injective (Base32.encode_injective h)

theorem length_write (body : Bytes) : (write body).length = (8 * (body.length + 2) + 4) / 5 := by
  rw [write, Base32.length_encode, length_sealed]

/-- The text of a body with its checksum taken bit by bit, which closed terms evaluate by. -/
theorem write_eq_feedBits (body : Bytes) :
    write body = Base32.encode (body ++ leBytes 2 (feedBits 0 (byteBits body)).toNat) := by
  rw [write, sealed, written, checksum_eq_feedBits]

/-- The same in two steps, since the bits of a long body are too many for one evaluation. -/
theorem write_append {front back : Bytes} {middle sum : UInt16}
    (hmiddle : feedBits 0 (byteBits front) = middle)
    (hsum : feedBits middle (byteBits back) = sum) :
    write (front ++ back) = Base32.encode (front ++ back ++ leBytes 2 sum.toNat) := by
  rw [write_eq_feedBits, byteBits_append, feedBits_append, hmiddle, hsum]

end Envelope

end RoleKey
