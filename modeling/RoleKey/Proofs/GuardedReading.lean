import RoleKey.Proofs.EnvelopeBijection
import RoleKey.Proofs.GuardedBase32

/-!
No text makes reading break a guard.

An envelope is only opened with three bytes or more, so its checksum can be cut off and a body of
one byte at least is left (`body_eq`). That byte is all that reading a key looks for
(`payload_eq`); reading a seed looks for two and for what is behind them, after it has found that
many (`seed_eq`); and the role of a text is told from two bytes, if there are two (`roleOf_eq`).
`guards_hold` puts this together with the bounds on the register that base 32 keeps.
-/

set_option autoImplicit false
set_option relaxedAutoImplicit false

namespace RoleKey.Guarded

open RoleKey.Base32 (Register)

/-- What comes to be without a breach, where each step that succeeds is followed by steps without
one. -/
theorem lift_bind_congr {α β : Type} {outcome : Except KeyError α} {f : α → Guarded β}
    {g : α → Except KeyError β} (h : ∀ a, outcome = .ok a → f a = lift (g a)) :
    (lift outcome >>= f) = lift (outcome >>= g) := by
  cases outcome with
  | error e => rfl
  | ok a => exact h a rfl

/-! ### Envelopes -/

/-- The last two bytes are those at the two last places. -/
theorem drop_eq_pair {raw : Bytes} {split : ℕ} (h : split + 2 = raw.length) :
    raw.drop split = [raw[split], raw[split + 1]] := by
  rw [List.drop_eq_getElem_cons (by omega), List.drop_eq_getElem_cons (by omega),
    List.drop_of_length_le (by omega)]

theorem body_eq (text : String) : body text = lift (Envelope.read text) := by
  rw [Envelope.read, body, Base32.decode_eq]
  refine lift_bind_congr fun raw _ ↦ ?_
  rw [Envelope.opened]
  by_cases hshort : raw.length < Envelope.minimumLength
  · rw [if_pos hshort, if_pos hshort]
    rfl
  · have hlength : 3 ≤ raw.length := Nat.not_lt.mp hshort
    obtain ⟨split, hsplit⟩ : ∃ split, split + Envelope.checksumLength = raw.length :=
      ⟨raw.length - 2, Nat.sub_add_cancel (by omega)⟩
    have hfront : raw.length - Envelope.checksumLength = split := by omega
    have hlow : split < raw.length := by rw [← hsplit]; exact Nat.lt_add_of_pos_right (by decide)
    have hhigh : split + 1 < raw.length := by
      rw [← hsplit]
      exact Nat.add_lt_add_left (by decide) split
    rw [if_neg hshort, if_neg hshort, minus_eq_ok_of_add hsplit, ok_bind, hfront,
      drop_eq_pair hsplit]
    dsimp only
    rw [index_eq_ok hlow, ok_bind, index_eq_ok hhigh, ok_bind, front_eq_ok (Nat.le_of_lt hlow),
      ok_bind]
    cases Checksum.validate (raw.take split)
      (UInt16.ofNat (leNat [raw[split], raw[split + 1]])) <;> rfl

/-- A body that is read has one byte at least. -/
theorem exists_cons_of_read {text : String} {raw : Bytes} (h : Envelope.read text = .ok raw) :
    ∃ first rest, raw = first :: rest :=
  List.exists_cons_of_ne_nil (Envelope.read_eq_ok_iff.mp h).1

/-! ### Keys and seeds -/

theorem payload_eq (roleByte : UInt8) (text : String) :
    payload roleByte text = lift (KeyText.decode roleByte text) := by
  rw [payload, KeyText.decode]
  refine lift_bind_congr fun expected _ ↦ ?_
  rw [body_eq]
  refine lift_bind_congr fun raw hraw ↦ ?_
  obtain ⟨first, rest, rfl⟩ := exists_cons_of_read hraw
  rw [index_eq_ok (Nat.zero_lt_succ rest.length), ok_bind, List.getElem_cons_zero]
  dsimp only
  split_ifs <;> rfl

theorem seed_eq (text : String) : seed text = lift (SeedText.decode text) := by
  rw [seed, SeedText.decode, body_eq]
  refine lift_bind_congr fun raw hraw ↦ ?_
  obtain ⟨high, _ | ⟨low, material⟩, rfl⟩ := exists_cons_of_read hraw
  · rfl
  have hheader : SeedText.headerLength ≤ (high :: low :: material).length :=
    Nat.le_add_left 2 material.length
  rw [if_neg (Nat.not_lt.mpr hheader), index_eq_ok (Nat.zero_lt_succ _), ok_bind,
    index_eq_ok (Nat.succ_lt_succ (Nat.zero_lt_succ _)), ok_bind, SeedText.ofBody]
  change (if high &&& tagMask ≠ Role.seed.byte then refuse .invalidSeed else _) = _
  by_cases htag : high &&& tagMask = Role.seed.byte
  · rw [if_neg (not_not.mpr htag), if_pos htag]
    change _ = lift (Role.ofByte (SeedText.embeddedByte high low) >>= _)
    refine lift_bind_congr fun role _ ↦ ?_
    by_cases hpublic : role.isPublic = true
    · rw [if_neg (not_not.mpr hpublic), if_pos hpublic, back_eq_ok hheader, ok_bind]
      change (if material.length ≠ SeedText.materialLength then _ else _) = _
      by_cases hlength : material.length = SeedText.materialLength
      · rw [if_neg (not_not.mpr hlength), if_pos hlength]
        rfl
      · rw [if_pos hlength, if_neg hlength]
        rfl
    · rw [if_pos hpublic, if_neg hpublic]
      rfl
  · rw [if_pos htag, if_neg htag]
    rfl

/-! ### The role that a text claims -/

theorem digitOf_eq (c : UInt8) :
    digitOf c = .ok ((Base32.digitOfByte c).map fun d ↦ UInt8.ofNat d.val) := by
  rw [digitOf, Base32.index_table, ok_bind]
  cases hc : Base32.digitOfByte c with
  | none => rfl
  | some d =>
    rw [if_neg (Base32.entry_ne_noDigit d)]
    rfl

theorem roleOf_of_short {text : String} (h : (Text.utf8 text).length < 2) :
    roleOf text = .ok none := by
  rw [roleOf]
  exact if_pos (Nat.lt_of_le_of_lt (List.length_take_le' _ _) h)

/-- Two bytes tell the role if both are those of digits. -/
theorem roleOf_of_two {text : String} {first second : UInt8} {rest : Bytes}
    (h : Text.utf8 text = first :: second :: rest) :
    roleOf text = .ok ((Base32.digitOfByte first).bind fun high ↦
      (Base32.digitOfByte second).bind fun low ↦
        KeyText.roleOfByte (KeyText.firstByte high low)) := by
  have hhead : (Text.utf8 text).take 2 = [first, second] := by rw [h]; rfl
  rw [roleOf, hhead, if_neg (by simp), index_eq_ok (by simp), ok_bind, List.getElem_cons_zero,
    digitOf_eq, ok_bind]
  cases Base32.digitOfByte first with
  | none => rfl
  | some high =>
    dsimp only [Option.map_some]
    rw [index_eq_ok (by simp), ok_bind, List.getElem_cons_succ, List.getElem_cons_zero, digitOf_eq,
      ok_bind]
    cases Base32.digitOfByte second <;> rfl

theorem roleOf_eq (text : String) : roleOf text = .ok (KeyText.roleOf text) := by
  rw [KeyText.roleOf]
  rcases hchars : text.toList with _ | ⟨c, chars⟩
  · obtain rfl : text = "" := String.toList_inj.mp hchars
    rfl
  obtain ⟨first, rest, hbytes, hfirst, hsingle⟩ := Base32.exists_utf8EncodeChar c
  have hutf8 : Text.utf8 text = first :: (rest ++ Text.utf8 (String.ofList chars)) := by
    rw [← String.ofList_toList (s := text), hchars, Base32.utf8_cons, hbytes, List.cons_append]
  cases rest with
  | cons second rest =>
    -- A character of more bytes than one is no digit.
    have hnone : Base32.digitOfByte first = none := by
      rw [hfirst]
      by_contra hsome
      exact List.cons_ne_nil _ _ (hsingle hsome)
    rw [roleOf_of_two hutf8, hnone]
    rw [hfirst] at hnone
    cases chars with
    | nil => rfl
    | cons d chars =>
      dsimp only
      rw [hnone]
      rfl
  | nil =>
    cases chars with
    | nil =>
      have hlength : (Text.utf8 text).length = 1 := by
        rw [hutf8]
        rfl
      exact roleOf_of_short (hlength ▸ Nat.one_lt_two)
    | cons d chars =>
      obtain ⟨second, others, hbytes, hsecond, -⟩ := Base32.exists_utf8EncodeChar d
      rw [Base32.utf8_cons, hbytes] at hutf8
      rw [roleOf_of_two hutf8, hfirst, hsecond]
      rfl

/-! ### All guards -/

/-- Every guard holds, for all byte strings, all texts and all bytes of roles. Before each byte that
is written the register holds fewer than five bits and before each byte that is read fewer than
eight, with no other bit of the buffer set, unless reading has ended at a byte before; and the
guarded functions come to what the unguarded ones do, which is never a breach. -/
theorem guards_hold :
    (∀ (data : Bytes) (place : ℕ),
      let r := (data.take place).foldl Register.afterByte .empty
      r.Fits 5 ∧ ∃ out, Base32.bytesIn .empty (data.take place) = .ok (out, r)) ∧
    (∀ (text : String) (place : ℕ),
      Base32.charsIn .empty ((Text.utf8 text).take place) = refuse .invalidEncoding ∨
        ∃ ds, ((Text.utf8 text).take place).mapM Base32.digitOfByte = some ds ∧
          let r := ds.foldl Register.afterDigit .empty
          r.Fits 8 ∧ ∃ out, Base32.charsIn .empty ((Text.utf8 text).take place) = .ok (out, r)) ∧
    (∀ data : Bytes, Base32.encode data = lift (.ok (RoleKey.Base32.encode data))) ∧
    (∀ text : String, Base32.decode text = lift (RoleKey.Base32.decode text) ∧
      body text = lift (Envelope.read text) ∧
      (∀ roleByte, payload roleByte text = lift (KeyText.decode roleByte text)) ∧
      seed text = lift (SeedText.decode text) ∧
      roleOf text = lift (.ok (KeyText.roleOf text))) ∧
    ∀ {α : Type} (outcome : Except KeyError α) (b : Breach), lift outcome ≠ .error (.breach b) := by
  refine ⟨fun data place ↦ ?_, fun text place ↦ ?_, Base32.encode_eq, fun text ↦
    ⟨Base32.decode_eq text, body_eq text, fun roleByte ↦ payload_eq roleByte text, seed_eq text,
      roleOf_eq text⟩, lift_ne_breach⟩
  · obtain ⟨out, hread, -⟩ := Base32.bytesIn_eq Register.fits_empty (data.take place)
    exact ⟨Base32.fits_foldl_afterByte Register.fits_empty _, out, hread⟩
  · have hempty : Register.empty.Fits 8 := Register.fits_empty.mono (by decide)
    cases hchars : ((Text.utf8 text).take place).mapM Base32.digitOfByte with
    | none => exact Or.inl (Base32.charsIn_of_none hempty hchars)
    | some ds =>
      obtain ⟨out, hread, -⟩ := Base32.charsIn_of_digits hempty hchars
      exact Or.inr ⟨ds, rfl, Base32.fits_foldl_afterDigit hempty ds, out, hread⟩

end RoleKey.Guarded
