import RoleKey.KeyText
import RoleKey.Proofs.EnvelopeBijection

/-!
Writing and reading key texts are inverse to each other.

`encode_byte` and `decode_of_read` say what the two do once the role is known. A text is read under
a role exactly if it is the envelope of a first byte that claims the role and of the payload
(`decode_eq_ok_iff`). For every role but that of seeds the role's own byte is the only one that
claims it (`claimed_eq_byte_iff`), and no first byte claims two roles (`claimed_unique`).
`decode_inverts_encode` puts this together.
-/

set_option autoImplicit false
set_option relaxedAutoImplicit false

namespace RoleKey.KeyText

/-! ### First bytes -/

/-- A first byte claims the seed role by its tag and every other role by being its byte. -/
theorem claimed_eq_byte_iff {role : Role} {first : UInt8} :
    claimed role first = role.byte ↔
      if role = .seed then first &&& tagMask = Role.seed.byte else first = role.byte := by
  unfold claimed
  split_ifs with hseed
  · rw [hseed]
  · rfl

theorem claimed_byte (role : Role) : claimed role role.byte = role.byte := by
  rw [claimed_eq_byte_iff]
  split_ifs with hseed
  · rw [hseed, Role.byte_and_tagMask]
  · rfl

/-- Under the mask of the tag, a byte that claims a role is the role's byte. -/
theorem and_tagMask_of_claimed {role : Role} {first : UInt8}
    (h : claimed role first = role.byte) : first &&& tagMask = role.byte := by
  rw [claimed_eq_byte_iff] at h
  split_ifs at h with hseed
  · rw [h, hseed]
  · rw [h, Role.byte_and_tagMask]

/-- No first byte claims two roles. -/
theorem claimed_unique {role other : Role} {first : UInt8} (h : claimed role first = role.byte)
    (hother : claimed other first = other.byte) : role = other :=
  Role.byte_inj.mp ((and_tagMask_of_claimed h).symm.trans (and_tagMask_of_claimed hother))

/-! ### Writing and reading under a role -/

theorem encode_byte (role : Role) (payload : Bytes) :
    encode role.byte payload = .ok (Envelope.write (role.byte :: payload)) := by
  rw [encode, Role.ofByte_byte]
  rfl

theorem decode_of_read (role : Role) {text : String} {first : UInt8} {payload : Bytes}
    (h : Envelope.read text = .ok (first :: payload)) :
    decode role.byte text =
      if claimed role first = role.byte then .ok payload else .error .invalidPrefixByte := by
  rw [decode, Role.ofByte_byte, h]
  rfl

theorem decode_of_read_error (role : Role) {text : String} {e : KeyError}
    (h : Envelope.read text = .error e) : decode role.byte text = .error e := by
  rw [decode, Role.ofByte_byte, h]
  rfl

/-- A text is read under a role exactly if it is the envelope of a first byte that claims the role
and of the payload. -/
theorem decode_eq_ok_iff {role : Role} {text : String} {payload : Bytes} :
    decode role.byte text = .ok payload ↔
      ∃ first, claimed role first = role.byte ∧ Envelope.write (first :: payload) = text := by
  constructor
  · intro h
    cases hread : Envelope.read text with
    | error e => simp [decode_of_read_error role hread] at h
    | ok body =>
      obtain ⟨hbody, hwrite⟩ := Envelope.read_eq_ok_iff.mp hread
      obtain ⟨first, rest, rfl⟩ := List.exists_cons_of_ne_nil hbody
      rw [decode_of_read role hread] at h
      split_ifs at h with hclaimed
      exact ⟨first, hclaimed, by rw [← Except.ok.inj h, hwrite]⟩
  · rintro ⟨first, hclaimed, rfl⟩
    rw [decode_of_read role (Envelope.read_write (List.cons_ne_nil _ _)), if_pos hclaimed]

/-- What is written under a role is read under it. -/
theorem decode_encode (role : Role) (payload : Bytes) :
    ∃ text, encode role.byte payload = .ok text ∧ decode role.byte text = .ok payload :=
  ⟨_, encode_byte role payload, decode_eq_ok_iff.mpr ⟨role.byte, claimed_byte role, rfl⟩⟩

/-- A text is read under one role at most. -/
theorem role_unique {role other : Role} {text : String} {payload rest : Bytes}
    (h : decode role.byte text = .ok payload) (hother : decode other.byte text = .ok rest) :
    role = other := by
  obtain ⟨first, hclaimed, hwrite⟩ := decode_eq_ok_iff.mp h
  obtain ⟨first', hclaimed', hwrite'⟩ := decode_eq_ok_iff.mp hother
  have hfirst := (List.cons.inj (Envelope.write_injective (hwrite.trans hwrite'.symm))).1
  rw [← hfirst] at hclaimed'
  exact claimed_unique hclaimed hclaimed'

/-! ### A published key -/

/-- The public key of a published user key pair. -/
def publishedUserKey : Bytes :=
  [0x95, 0xd6, 0xfd, 0xbe, 0xf3, 0x82, 0xe4, 0x34, 0xb7, 0x06, 0x05, 0xa0, 0x09, 0x30, 0xc1, 0x64,
    0xe1, 0xf2, 0xb8, 0x6d, 0x3c, 0x07, 0x91, 0x33, 0x05, 0x4b, 0x90, 0xea, 0x55, 0x3a, 0xd4, 0x62]

/-- Its text. -/
def publishedUserText : String := "UCK5N7N66OBOINFXAYC2ACJQYFSOD4VYNU6APEJTAVFZB2SVHLKGEW7L"

theorem write_publishedUserKey :
    Envelope.write (Role.user.byte :: publishedUserKey) = publishedUserText := by
  rw [Envelope.write_eq_feedBits]
  decide +kernel

theorem decode_publishedUserText :
    decode Role.user.byte publishedUserText = .ok publishedUserKey :=
  decode_eq_ok_iff.mpr ⟨Role.user.byte, claimed_byte .user, write_publishedUserKey⟩

/-! ### The two directions together -/

/-- Reading inverts writing over the whole format. Under every role but that of seeds exactly the
text of a payload is read as that payload. Under the seed role exactly the base 32 of a first byte
with the seed tag, the payload and the checksum of both, low byte first, is read as the payload.
Under every role what is written is read again, and no text is read under two roles. -/
theorem decode_inverts_encode (text : String) :
    (∀ (role : Role) (payload : Bytes), role ≠ .seed →
      (decode role.byte text = .ok payload ↔ encode role.byte payload = .ok text)) ∧
    (∀ payload : Bytes, decode Role.seed.byte text = .ok payload ↔
      ∃ first : UInt8, first &&& 0xF8 = Role.seed.byte ∧
        text = Base32.encode ([first] ++ payload ++
          leBytes 2 (Checksum.checksum ([first] ++ payload)).toNat)) ∧
    (∀ (role : Role) (payload : Bytes), ∃ written,
      encode role.byte payload = .ok written ∧ decode role.byte written = .ok payload) ∧
    (∀ (role other : Role) (payload rest : Bytes), decode role.byte text = .ok payload →
      decode other.byte text = .ok rest → role = other) := by
  refine ⟨fun role payload hrole ↦ ?_, fun payload ↦ ?_, decode_encode,
    fun _ _ _ _ h hother ↦ role_unique h hother⟩
  · rw [decode_eq_ok_iff, encode_byte, Except.ok.injEq]
    simp only [claimed_eq_byte_iff, if_neg hrole, exists_eq_left]
  · rw [decode_eq_ok_iff]
    simp only [claimed_eq_byte_iff, if_true]
    exact exists_congr fun first ↦ and_congr_right fun _ ↦ eq_comm

/-- The published text of a user's public key is read as its bytes, since it is their text, and it
is read under no other role. -/
theorem decode_inverts_encode_user_key :
    Role.user ≠ .seed ∧ decode Role.user.byte publishedUserText = .ok publishedUserKey ∧
    ∀ (other : Role) (rest : Bytes),
      decode other.byte publishedUserText = .ok rest → Role.user = other := by
  obtain ⟨hinverse, -, -, hunique⟩ := decode_inverts_encode publishedUserText
  have hread : decode Role.user.byte publishedUserText = .ok publishedUserKey := by
    refine (hinverse .user _ (by decide)).mpr ?_
    rw [encode_byte, write_publishedUserKey]
  exact ⟨by decide, hread, fun other rest hother ↦ hunique .user other _ rest hread hother⟩

end RoleKey.KeyText
