import RoleKey.Proofs.CorruptionReports

/-!
Which texts are refused as key material, and for which cause.

A text carries a body if it is the base 32 of the body, of one byte at least, and of the body's
checksum (`Carries`). So a text is of one of three kinds: it carries a body, it is corrupted, or it
is no base 32 of three bytes or more. The envelope tells the three apart
(`Envelope.read_eq_ok_iff_carries`, `Envelope.read_eq_invalidChecksum_iff`,
`Envelope.read_eq_invalidEncoding_iff`), and reading under a role passes its refusals on
(`decode_eq_error_iff_read`). What it adds is the refusal of a first byte that claims another role
(`decode_eq_invalidPrefixByte_iff`), and before all else that of a byte which is no role
(`decode_of_no_role`). `refusals_have_one_cause` lists the causes of every outcome.
-/

set_option autoImplicit false
set_option relaxedAutoImplicit false

namespace RoleKey

/-- A text that is the base 32 of a body, of one byte at least, and behind it of the checksum of
that body, low byte first. -/
def Carries (text : String) (body : Bytes) : Prop :=
  body ≠ [] ∧ text = Base32.encode (body ++ leBytes 2 (Checksum.checksum body).toNat)

/-! ### Envelopes -/

namespace Envelope

variable {text : String}

theorem read_eq_ok_iff_carries {body : Bytes} : read text = .ok body ↔ Carries text body := by
  rw [read_eq_ok_iff]
  exact and_congr_right fun _ ↦ eq_comm

/-- A text is refused for its encoding exactly if it is no base 32 of three bytes or more. -/
theorem read_eq_invalidEncoding_iff :
    read text = .error .invalidEncoding ↔
      ¬ ∃ raw : Bytes, 3 ≤ raw.length ∧ text = Base32.encode raw := by
  cases hraw : Base32.decode text with
  | error e =>
    have hrefused : read text = .error .invalidEncoding := by
      rw [read, hraw, Base32.decode_error hraw]
      rfl
    refine iff_of_true hrefused ?_
    rintro ⟨raw, -, rfl⟩
    rw [Base32.decode_encode] at hraw
    cases hraw
  | ok raw =>
    obtain rfl := Base32.decode_eq_ok_iff.mp hraw
    rw [read_encode, opened_eq]
    by_cases hshort : raw.length < 3
    · rw [if_pos hshort]
      refine iff_of_true rfl ?_
      rintro ⟨other, hlong, hother⟩
      rw [← Base32.encode_injective hother] at hlong
      omega
    · rw [if_neg hshort]
      refine iff_of_false ?_ (not_not.mpr ⟨raw, Nat.le_of_not_lt hshort, rfl⟩)
      split_ifs <;> simp

end Envelope

/-! ### Key material -/

namespace KeyText

variable {role : Role} {text : String}

/-- A byte that is no role is refused whatever the text. -/
theorem decode_of_no_role {roleByte : UInt8} (h : ∀ role : Role, role.byte ≠ roleByte)
    (text : String) : decode roleByte text = .error .invalidPrefixByte := by
  cases hrole : Role.ofByte roleByte with
  | ok role => exact absurd (Role.ofByte_eq_ok_iff.mp hrole).symm (h role)
  | error e =>
    rw [decode, hrole, Role.ofByte_error hrole]
    rfl

/-- Under a role, a refusal for any cause but the first byte is one of the envelope. -/
theorem decode_eq_error_iff_read {e : KeyError} (he : e ≠ .invalidPrefixByte) :
    decode role.byte text = .error e ↔ Envelope.read text = .error e := by
  cases hread : Envelope.read text with
  | error reason => rw [decode_of_read_error role hread]
  | ok body =>
    obtain ⟨first, payload, rfl⟩ :=
      List.exists_cons_of_ne_nil (Envelope.read_eq_ok_iff.mp hread).1
    rw [decode_of_read role hread]
    refine iff_of_false ?_ (fun h ↦ nomatch h)
    split_ifs
    · exact fun h ↦ nomatch h
    · exact fun h ↦ he (Except.error.inj h).symm

/-- Under a role, the first byte is refused exactly if the text carries a body whose first byte does
not claim the role. -/
theorem decode_eq_invalidPrefixByte_iff :
    decode role.byte text = .error .invalidPrefixByte ↔
      ∃ first payload, Carries text (first :: payload) ∧ claimed role first ≠ role.byte := by
  simp only [← Envelope.read_eq_ok_iff_carries]
  constructor
  · intro h
    cases hread : Envelope.read text with
    | error e =>
      -- The envelope has two refusals, and this is neither.
      rw [decode_of_read_error role hread] at h
      rcases Envelope.read_error hread with rfl | rfl <;> exact nomatch h
    | ok body =>
      obtain ⟨first, payload, rfl⟩ :=
        List.exists_cons_of_ne_nil (Envelope.read_eq_ok_iff.mp hread).1
      rw [decode_of_read role hread] at h
      refine ⟨first, payload, rfl, fun hclaimed ↦ ?_⟩
      rw [if_pos hclaimed] at h
      exact nomatch h
  · rintro ⟨first, payload, hread, hclaimed⟩
    rw [decode_of_read role hread, if_neg hclaimed]

/-- Under a role, a text is read exactly as what stands behind the first byte of the body that it
carries, if that byte claims the role. -/
theorem decode_eq_ok_iff_carries {payload : Bytes} :
    decode role.byte text = .ok payload ↔
      ∃ first, Carries text (first :: payload) ∧ claimed role first = role.byte := by
  simp only [decode_eq_ok_iff, ← Envelope.read_eq_ok_iff_carries, Envelope.read_eq_ok_iff]
  refine exists_congr fun first ↦ ?_
  rw [and_comm, and_congr_left_iff]
  exact fun _ ↦ (and_iff_right (List.cons_ne_nil first payload)).symm

/-- What a first byte is compared by when a byte is expected: the five bits of the tag if that is
the byte of seeds, and the whole byte otherwise. -/
def compared (roleByte first : UInt8) : UInt8 :=
  if roleByte = Role.seed.byte then first &&& 0xF8 else first

theorem compared_byte (role : Role) (first : UInt8) :
    compared role.byte first = claimed role first := by
  unfold compared claimed
  exact if_congr Role.byte_inj rfl rfl

/-- The causes of all outcomes, whatever byte is expected and whatever the text. It is refused for
the first byte exactly if the byte expected is no role, or if it carries a body whose first byte is
another; for its encoding exactly if the byte expected is a role and the text is no base 32 of three
bytes or more; for its checksum exactly if the byte expected is a role and the text is base 32 of
three bytes or more of which the last two are not the checksum of those before. It is read exactly
if the byte expected is a role and the text carries a body whose first byte is that one, and then as
what stands behind that byte. There is no other outcome. -/
theorem refusals_have_one_cause (roleByte : UInt8) (text : String) :
    (decode roleByte text = .error .invalidPrefixByte ↔
      (∀ role : Role, role.byte ≠ roleByte) ∨
        ∃ first payload, Carries text (first :: payload) ∧
          compared roleByte first ≠ roleByte) ∧
    (decode roleByte text = .error .invalidEncoding ↔
      (∃ role : Role, role.byte = roleByte) ∧
        ¬ ∃ raw : Bytes, 3 ≤ raw.length ∧ text = Base32.encode raw) ∧
    (decode roleByte text = .error .invalidChecksum ↔
      (∃ role : Role, role.byte = roleByte) ∧ Corrupted text) ∧
    (∀ payload, decode roleByte text = .ok payload ↔
      (∃ role : Role, role.byte = roleByte) ∧
        ∃ first, Carries text (first :: payload) ∧ compared roleByte first = roleByte) ∧
    ((∃ payload, decode roleByte text = .ok payload) ∨
      decode roleByte text = .error .invalidPrefixByte ∨
      decode roleByte text = .error .invalidEncoding ∨
      decode roleByte text = .error .invalidChecksum) := by
  by_cases hrole : ∃ role : Role, role.byte = roleByte
  · obtain ⟨role, rfl⟩ := hrole
    have hnone : ¬ ∀ other : Role, other.byte ≠ role.byte := fun h ↦ h role rfl
    have hsome : ∃ other : Role, other.byte = role.byte := ⟨role, rfl⟩
    simp only [compared_byte, hnone, hsome, false_or, true_and]
    refine ⟨decode_eq_invalidPrefixByte_iff, ?_, ?_, fun _ ↦ decode_eq_ok_iff_carries, ?_⟩
    · rw [decode_eq_error_iff_read (by decide), Envelope.read_eq_invalidEncoding_iff]
    · rw [decode_eq_error_iff_read (by decide), Envelope.read_eq_invalidChecksum_iff]
    · cases hread : decode role.byte text with
      | ok payload => exact Or.inl ⟨payload, rfl⟩
      | error e =>
        by_cases he : e = .invalidPrefixByte
        · exact Or.inr (Or.inl (by rw [he]))
        · rcases Envelope.read_error ((decode_eq_error_iff_read he).mp hread) with rfl | rfl
          · exact Or.inr (Or.inr (Or.inl rfl))
          · exact Or.inr (Or.inr (Or.inr rfl))
  · have hnone : ∀ role : Role, role.byte ≠ roleByte := fun role h ↦ hrole ⟨role, h⟩
    rw [decode_of_no_role hnone]
    simp [hnone]

/-- The published public key of a user, and texts and bytes that are refused for each cause: the
byte of another role, a byte that is no role, the text with its last character mistyped, and the
empty text. -/
theorem refusals_have_one_cause_user_key :
    Carries publishedUserText (Role.user.byte :: publishedUserKey) ∧
    decode Role.user.byte publishedUserText = .ok publishedUserKey ∧
    decode Role.account.byte publishedUserText = .error .invalidPrefixByte ∧
    decode unknownTagByte publishedUserText = .error .invalidPrefixByte ∧
    decode Role.user.byte KeyPair.mistypedEnd = .error .invalidChecksum ∧
    decode Role.user.byte "" = .error .invalidEncoding := by
  have hcarries : Carries publishedUserText (Role.user.byte :: publishedUserKey) :=
    ⟨List.cons_ne_nil _ _, write_publishedUserKey.symm⟩
  refine ⟨hcarries, ?_, ?_, ?_, ?_, ?_⟩
  · exact ((refusals_have_one_cause _ _).2.2.2.1 _).mpr ⟨⟨.user, rfl⟩, _, hcarries, rfl⟩
  · exact (refusals_have_one_cause _ _).1.mpr (Or.inr ⟨_, _, hcarries, by decide⟩)
  · refine (refusals_have_one_cause _ _).1.mpr (Or.inl fun role h ↦ ?_)
    cases role <;> exact absurd h (by decide)
  · exact (refusals_have_one_cause _ _).2.2.1.mpr
      ⟨⟨.user, rfl⟩, KeyPair.corrupted_mistypedEnd⟩
  · refine (refusals_have_one_cause _ _).2.1.mpr ⟨⟨.user, rfl⟩, ?_⟩
    rintro ⟨raw, hlong, hraw⟩
    have hlength := congrArg String.length hraw
    rw [Base32.length_encode] at hlength
    change 0 = _ at hlength
    omega

end KeyText

end RoleKey
