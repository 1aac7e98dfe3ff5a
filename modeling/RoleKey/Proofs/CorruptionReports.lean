import RoleKey.Proofs.KeyRecognition
import RoleKey.Proofs.SeedAcceptance

/-!
How readers of keys report that a text is corrupted.

A corrupted text is base 32 of a body and of two bytes that are not its checksum (`Corrupted`), and
an envelope is refused for its checksum exactly if its text is of this kind
(`Envelope.read_eq_invalidChecksum_iff`). Reading a seed, and reading a public key of a given role,
opens the envelope before it looks at any role in the text, so that they report the checksum. What
reads a public key of the role that it claims looks at the first byte to know the role, and refuses
a byte that is no role which signs before anything else: `corruption_reported` says which texts it
refuses in which way, and `corruption_unreported` has a text on which it does not report the
checksum.
-/

set_option autoImplicit false
set_option relaxedAutoImplicit false

namespace RoleKey

/-- A text of three bytes or more, of which the last two are not the checksum of those before. -/
def Corrupted (text : String) : Prop :=
  ∃ body stored : Bytes, body ≠ [] ∧ stored.length = 2 ∧
    stored ≠ leBytes 2 (Checksum.checksum body).toNat ∧ text = Base32.encode (body ++ stored)

/-! ### Envelopes -/

namespace Envelope

/-- Enough bytes that do not open are refused for their checksum. -/
theorem opened_eq_invalidChecksum_iff {raw : Bytes} :
    opened raw = .error .invalidChecksum ↔ 3 ≤ raw.length ∧ ∀ body, opened raw ≠ .ok body := by
  rw [opened_eq]
  by_cases hshort : raw.length < 3
  · rw [if_pos hshort]
    exact iff_of_false (fun h ↦ nomatch h) fun h ↦ by omega
  · rw [if_neg hshort]
    split_ifs
    · exact iff_of_false (fun h ↦ nomatch h) fun h ↦ h.2 _ rfl
    · exact iff_of_true rfl ⟨Nat.le_of_not_lt hshort, fun _ h ↦ nomatch h⟩

/-- A text is refused for its checksum exactly if it is corrupted. -/
theorem read_eq_invalidChecksum_iff {text : String} :
    read text = .error .invalidChecksum ↔ Corrupted text := by
  constructor
  · intro h
    cases hraw : Base32.decode text with
    | error e =>
      rw [read, hraw, Base32.decode_error hraw] at h
      simp [bind, Except.bind] at h
    | ok raw =>
      obtain rfl := Base32.decode_eq_ok_iff.mp hraw
      rw [read_encode, opened_eq_invalidChecksum_iff] at h
      obtain ⟨hlength, hclosed⟩ := h
      -- There are bytes enough to cut off two; were these the checksum, the rest would open.
      have hcut := List.take_append_drop (raw.length - 2) raw
      have hbody : raw.take (raw.length - 2) ≠ [] := by
        refine List.length_pos_iff.mp ?_
        rw [List.length_take]
        omega
      refine ⟨_, raw.drop (raw.length - 2), hbody, ?_, fun hwritten ↦ ?_, by rw [hcut]⟩
      · rw [List.length_drop]
        omega
      · refine hclosed _ (opened_eq_ok_iff.mpr ⟨hbody, ?_⟩)
        rw [sealed, Checksum.written, ← hwritten, hcut]
  · rintro ⟨body, stored, hbody, hlength, hstored, rfl⟩
    have hpos := List.length_pos_iff.mpr hbody
    rw [read_encode, opened_eq_invalidChecksum_iff]
    refine ⟨by rw [List.length_append]; omega, fun other hopened ↦ ?_⟩
    obtain ⟨-, hsealed⟩ := opened_eq_ok_iff.mp hopened
    obtain ⟨rfl, hwritten⟩ := List.append_inj' hsealed (by rw [Checksum.length_written, hlength])
    exact hstored hwritten.symm

end Envelope

/-! ### Readers of keys -/

namespace KeyPair

theorem ofPublicKey_of_read_error {role : Role} (hsigning : role.isSigning = true) {text : String}
    {e : KeyError} (h : Envelope.read text = .error e) : ofPublicKey role text = .error e := by
  rw [ofPublicKey, KeyText.decode_of_read_error role h, hsigning]
  rfl

/-- The first byte of a corrupted text is there to be looked at. -/
theorem roleOf_of_corrupted {text : String} (h : Corrupted text) :
    ∃ first rest, Base32.decode text = .ok (first :: rest) ∧
      KeyText.roleOf text = KeyText.roleOfByte first := by
  obtain ⟨body, stored, hbody, hlength, -, rfl⟩ := h
  obtain ⟨first, others, rfl⟩ := List.exists_cons_of_ne_nil hbody
  obtain ⟨second, rest, hrest⟩ : ∃ second rest, others ++ stored = second :: rest := by
    refine List.exists_cons_of_ne_nil fun hnil ↦ ?_
    have hcount := congrArg List.length hnil
    rw [List.length_append, hlength, List.length_nil] at hcount
    omega
  rw [List.cons_append, hrest]
  exact ⟨first, second :: rest, Base32.decode_encode _, KeyText.roleOf_encode first second rest⟩

/-- A first byte claims a role that signs exactly if it is the byte of that role. -/
theorem roleOfByte_eq_some_isSigning_iff {role : Role} (hsigning : role.isSigning = true)
    {first : UInt8} : KeyText.roleOfByte first = some role ↔ first = role.byte := by
  have hseed := Role.ne_seed_of_isPublic (Role.isPublic_of_isSigning hsigning)
  rw [KeyText.roleOfByte_eq_some_iff, KeyText.claimed_eq_byte_iff, if_neg hseed]

/-- A corrupted text is refused for its checksum as a seed, and as a public key of whatever given
role that signs. As a public key of the role that it claims it is refused for its checksum if its
first byte is that of a role which signs, and for that byte otherwise. -/
theorem corruption_reported (S : Scheme) {text : String} (h : Corrupted text) :
    ofSeed S text = .error .invalidChecksum ∧
    (∀ role : Role, role.isSigning = true →
      ofPublicKey role text = .error .invalidChecksum) ∧
    ∃ first rest, Base32.decode text = .ok (first :: rest) ∧
      (∀ role : Role, role.isSigning = true → first = role.byte →
        ofAnyPublicKey text = .error .invalidChecksum) ∧
      ((∀ role : Role, role.isSigning = true → first ≠ role.byte) →
        ofAnyPublicKey text = .error .invalidPrefixByte) := by
  have hread := Envelope.read_eq_invalidChecksum_iff.mpr h
  obtain ⟨first, rest, hdecoded, hclaimed⟩ := roleOf_of_corrupted h
  refine ⟨ofSeed_of_decode_error (SeedText.decode_of_read_error hread),
    fun role hsigning ↦ ofPublicKey_of_read_error hsigning hread, first, rest, hdecoded, ?_, ?_⟩
  · intro role hsigning hfirst
    have hrole := (roleOfByte_eq_some_isSigning_iff hsigning).mpr hfirst
    rw [ofAnyPublicKey, hclaimed, hrole]
    simp only [hsigning, if_true]
    exact ofPublicKey_of_read_error hsigning hread
  · intro hnone
    rw [ofAnyPublicKey, hclaimed]
    cases hrole : KeyText.roleOfByte first with
    | none => rfl
    | some role =>
      have hsilent : ¬ role.isSigning = true := fun hsigning ↦
        hnone role hsigning ((roleOfByte_eq_some_isSigning_iff hsigning).mp hrole)
      simp only [if_neg hsilent]

/-- The published text of a user's public key with its last character mistyped. -/
def mistypedEnd : String := "UCK5N7N66OBOINFXAYC2ACJQYFSOD4VYNU6APEJTAVFZB2SVHLKGEW7K"

/-- The same text with its first character mistyped instead. -/
def mistypedHead : String := "VCK5N7N66OBOINFXAYC2ACJQYFSOD4VYNU6APEJTAVFZB2SVHLKGEW7L"

/-- The bytes of the published public key behind a first byte, and behind them two bytes that are
not the checksum. -/
theorem corrupted_publishedUserKey (first : UInt8) (stored : Octets 2)
    (hstored : stored.bytes ≠ leBytes 2
      (Checksum.feedBits 0 (byteBits (first :: KeyText.publishedUserKey))).toNat) :
    Corrupted (Base32.encode (first :: KeyText.publishedUserKey ++ stored.bytes)) := by
  rw [← Checksum.checksum_eq_feedBits] at hstored
  exact ⟨_, _, List.cons_ne_nil _ _, stored.length_eq, hstored, rfl⟩

theorem encode_mistypedEnd :
    Base32.encode (Role.user.byte :: KeyText.publishedUserKey ++ [0x5b, 0xea]) = mistypedEnd := by
  decide

theorem encode_mistypedHead :
    Base32.encode (0xa8 :: KeyText.publishedUserKey ++ [0x5b, 0xeb]) = mistypedHead := by
  decide

theorem corrupted_mistypedEnd : Corrupted mistypedEnd := by
  rw [← encode_mistypedEnd]
  exact corrupted_publishedUserKey Role.user.byte ⟨[0x5b, 0xea], rfl⟩ (by decide +kernel)

theorem corrupted_mistypedHead : Corrupted mistypedHead := by
  rw [← encode_mistypedHead]
  exact corrupted_publishedUserKey 0xa8 ⟨[0x5b, 0xeb], rfl⟩ (by decide +kernel)

/-- Every reader reports the checksum of the text whose last character is mistyped, and so does
every one that does not take the role from the text whose first character is. -/
theorem corruption_reported_mistyped :
    Corrupted mistypedEnd ∧ Role.user.isSigning = true ∧
    ofSeed SeedText.publishedScheme mistypedEnd = .error .invalidChecksum ∧
    ofPublicKey .user mistypedEnd = .error .invalidChecksum ∧
    ofAnyPublicKey mistypedEnd = .error .invalidChecksum ∧
    Corrupted mistypedHead ∧
    ofSeed SeedText.publishedScheme mistypedHead = .error .invalidChecksum ∧
    ofPublicKey .user mistypedHead = .error .invalidChecksum ∧
    (∀ role : Role, role.isSigning = true → (0xa8 : UInt8) ≠ role.byte) ∧
    ofAnyPublicKey mistypedHead = .error .invalidPrefixByte := by
  obtain ⟨hseed, hkey, first, rest, hdecoded, hreported, -⟩ :=
    corruption_reported SeedText.publishedScheme corrupted_mistypedEnd
  rw [← encode_mistypedEnd, Base32.decode_encode, List.cons_append] at hdecoded
  obtain ⟨hfirst, -⟩ := List.cons.inj (Except.ok.inj hdecoded)
  obtain ⟨hseed', hkey', first', rest', hdecoded', -, hrefused⟩ :=
    corruption_reported SeedText.publishedScheme corrupted_mistypedHead
  rw [← encode_mistypedHead, Base32.decode_encode, List.cons_append] at hdecoded'
  obtain ⟨rfl, -⟩ := List.cons.inj (Except.ok.inj hdecoded')
  have hnone : ∀ role : Role, role.isSigning = true → (0xa8 : UInt8) ≠ role.byte := by
    intro role _
    cases role <;> decide
  exact ⟨corrupted_mistypedEnd, rfl, hseed, hkey .user rfl, hreported .user rfl hfirst.symm,
    corrupted_mistypedHead, hseed', hkey' .user rfl, hnone, hrefused hnone⟩

/-- A text is corrupted, and what takes the role from it does not report the checksum. -/
theorem corruption_unreported :
    Corrupted mistypedHead ∧ ofAnyPublicKey mistypedHead = .error .invalidPrefixByte ∧
      ofAnyPublicKey mistypedHead ≠ .error .invalidChecksum := by
  have hrole : KeyText.roleOf mistypedHead = none := by decide +kernel
  have hrefused : ofAnyPublicKey mistypedHead = .error .invalidPrefixByte := by
    rw [ofAnyPublicKey, hrole]
  refine ⟨corrupted_mistypedHead, hrefused, ?_⟩
  rw [hrefused]
  decide

end KeyPair

end RoleKey
