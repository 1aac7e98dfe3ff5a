import RoleKey.Proofs.RefusalCauses

/-!
Which texts are refused as seeds, and for which cause.

The bits of a body begin with a tag of five bits and go on with the eight bits of the role that it
embeds, across the end of its first byte. `Tagged` and `Embeds` say so of the bits, and
`tagged_cons_cons_iff` and `embeds_cons_cons_iff` are what the masks and shifts of the reader make
of them. A `Ruling` is one outcome with its cause, one constructor for each; reading a body gives
exactly the outcome that a ruling has (`ofBody_eq_iff_ruling`). What is no ruling on a body is a
refusal of the envelope, passed on as it is (`decode_eq_error_iff_read`). `refusals_in_order` puts
the causes of all six outcomes together.
-/

set_option autoImplicit false
set_option relaxedAutoImplicit false

namespace RoleKey.SeedText

/-! ### The bits of a header -/

/-- A body that has two bytes for a header and begins with the five bits of the seed tag. -/
def Tagged (body : Bytes) : Prop :=
  2 ≤ body.length ∧ (byteBits body).take 5 = digitBits [Role.seed.tag]

/-- A body whose eight bits behind the tag, the low three of the first byte and the top five of the
second, are those of a byte. -/
def Embeds (body : Bytes) (roleByte : UInt8) : Prop :=
  ((byteBits body).drop 5).take 8 = byteBits [roleByte]

theorem byteBits_cons_eq (b : UInt8) (rest : Bytes) :
    byteBits (b :: rest) = bitsOf 5 (b.toNat / 8) ++ (bitsOf 3 b.toNat ++ byteBits rest) := by
  rw [byteBits_cons, bitsOf_add 5 3, List.append_assoc]
  rfl

theorem tagged_cons_cons_iff {high low : UInt8} {material : Bytes} :
    Tagged (high :: low :: material) ↔ high &&& tagMask = Role.seed.byte := by
  have htake : (byteBits (high :: low :: material)).take 5 = bitsOf 5 (high.toNat / 8) := by
    rw [byteBits_cons_eq, List.take_left' (by simp)]
  have htag : digitBits [Role.seed.tag] = bitsOf 5 18 := rfl
  have hseed : Role.seed.byte.toNat = 144 := rfl
  have hhigh := high.toNat_lt
  rw [Tagged, htake, htag, bitsOf_eq_iff, ← UInt8.toNat_inj, toNat_and_tagMask, hseed]
  simp only [List.length_cons]
  omega

theorem embeds_cons_cons_iff {high low roleByte : UInt8} {material : Bytes} :
    Embeds (high :: low :: material) roleByte ↔ embeddedByte high low = roleByte := by
  have hlow := low.toNat_lt
  have hbits : ((byteBits (high :: low :: material)).drop 5).take 8 =
      byteBits [embeddedByte high low] := by
    rw [byteBits_cons_eq, List.drop_left' (by simp), byteBits_cons_eq, ← List.append_assoc,
      List.take_left' (by simp), ← bitsOf_mod (Nat.le_refl 3) high.toNat,
      ← bitsOf_mul_add 3 5 _ (by omega), byteBits_cons, byteBits_nil, List.append_nil,
      toNat_embeddedByte]
    rfl
  rw [Embeds, hbits, byteBits_injective.eq_iff, List.cons.injEq, and_iff_left rfl]

/-- A tagged body embeds a byte, whichever it is. -/
theorem Tagged.exists_embeds {body : Bytes} (h : Tagged body) :
    ∃ roleByte, Embeds body roleByte := by
  match body, h with
  | high :: low :: _, _ => exact ⟨embeddedByte high low, embeds_cons_cons_iff.mpr rfl⟩

theorem Embeddable.exists_role {roleByte : UInt8} (h : Embeddable roleByte) :
    ∃ role : Role, role.byte = roleByte :=
  h.imp fun _ hrole ↦ hrole.1

/-! ### Reading a body -/

section Body

variable {body : Bytes}

theorem ofBody_of_not_tagged (h : ¬ Tagged body) : ofBody body = .error .invalidSeed := by
  match body, h with
  | [], _ => rfl
  | [_], _ => rfl
  | high :: low :: material, h =>
    rw [tagged_cons_cons_iff] at h
    rw [ofBody_eq, if_neg h]

theorem ofBody_of_not_embeddable {roleByte : UInt8} (htag : Tagged body)
    (hembeds : Embeds body roleByte) (h : ¬ Embeddable roleByte) :
    ofBody body = .error .invalidPrefixByte := by
  match body, htag with
  | high :: low :: material, htag =>
    rw [embeds_cons_cons_iff] at hembeds
    rw [ofBody_eq, if_pos (tagged_cons_cons_iff.mp htag), hembeds]
    cases hrole : Role.ofByte roleByte with
    | error e => rw [Role.ofByte_error hrole]
    | ok role =>
      rw [Role.ofByte_eq_ok_iff.mp hrole, embeddable_byte_iff] at h
      dsimp only
      rw [if_neg h]

theorem ofBody_of_embeddable {role : Role} (htag : Tagged body) (hembeds : Embeds body role.byte)
    (h : Embeddable role.byte) : ofBody body =
      if body.length - 2 = 64 then .ok (role, body.drop 2)
      else .error (.invalidSeedLength (body.length - 2)) := by
  match body, htag with
  | high :: low :: material, htag =>
    rw [embeds_cons_cons_iff] at hembeds
    rw [ofBody_eq, if_pos (tagged_cons_cons_iff.mp htag), hembeds, Role.ofByte_byte]
    dsimp only
    rw [if_pos (embeddable_byte_iff.mp h)]
    rfl

/-- The outcomes of reading a body, each with its cause: the tag is looked at first, then the
embedded role, and then the length. -/
inductive Ruling (body : Bytes) : Except KeyError (Role × Bytes) → Prop
  | untagged (htag : ¬ Tagged body) : Ruling body (.error .invalidSeed)
  | unembeddable (roleByte : UInt8) (htag : Tagged body) (hembeds : Embeds body roleByte)
      (hrole : ¬ Embeddable roleByte) : Ruling body (.error .invalidPrefixByte)
  | missized (role : Role) (htag : Tagged body) (hembeds : Embeds body role.byte)
      (hrole : Embeddable role.byte) (hlength : body.length - 2 ≠ 64) :
      Ruling body (.error (.invalidSeedLength (body.length - 2)))
  | material (role : Role) (htag : Tagged body) (hembeds : Embeds body role.byte)
      (hrole : Embeddable role.byte) (hlength : body.length - 2 = 64) :
      Ruling body (.ok (role, body.drop (body.length - 64)))

theorem ruling_ofBody (body : Bytes) : Ruling body (ofBody body) := by
  by_cases htag : Tagged body
  · obtain ⟨roleByte, hembeds⟩ := htag.exists_embeds
    by_cases hrole : Embeddable roleByte
    · obtain ⟨role, rfl⟩ := hrole.exists_role
      rw [ofBody_of_embeddable htag hembeds hrole]
      split_ifs with hlength
      · have hdrop : body.length - 64 = 2 := by omega
        exact hdrop ▸ .material role htag hembeds hrole hlength
      · exact .missized role htag hembeds hrole hlength
    · rw [ofBody_of_not_embeddable htag hembeds hrole]
      exact .unembeddable roleByte htag hembeds hrole
  · rw [ofBody_of_not_tagged htag]
    exact .untagged htag

theorem ofBody_eq_iff_ruling {outcome : Except KeyError (Role × Bytes)} :
    ofBody body = outcome ↔ Ruling body outcome := by
  constructor
  · rintro rfl
    exact ruling_ofBody body
  · intro h
    cases h with
    | untagged htag => exact ofBody_of_not_tagged htag
    | unembeddable roleByte htag hembeds hrole =>
      exact ofBody_of_not_embeddable htag hembeds hrole
    | missized role htag hembeds hrole hlength =>
      rw [ofBody_of_embeddable htag hembeds hrole, if_neg hlength]
    | material role htag hembeds hrole hlength =>
      have hdrop : body.length - 64 = 2 := by omega
      rw [ofBody_of_embeddable htag hembeds hrole, if_pos hlength, hdrop]

theorem not_tagged_iff (hbody : body ≠ []) :
    ¬ Tagged body ↔
      body.length = 1 ∨ (byteBits body).take 5 ≠ digitBits [Role.seed.tag] := by
  have hpos := List.length_pos_iff.mpr hbody
  have hshort : ¬ 2 ≤ body.length ↔ body.length = 1 := by omega
  rw [Tagged, not_and_or, hshort]

end Body

/-! ### Reading a text -/

section Text

variable {text : String}

/-- A refusal of the envelope is passed on, and reading a body makes none of these. -/
theorem decode_eq_error_iff_read {e : KeyError} (he : e = .invalidEncoding ∨ e = .invalidChecksum) :
    decode text = .error e ↔ Envelope.read text = .error e := by
  cases hread : Envelope.read text with
  | error reason =>
    rw [decode_of_read_error hread, Except.error.injEq, Except.error.injEq]
  | ok body =>
    rw [decode_of_read hread]
    refine iff_of_false (fun h ↦ ?_) (fun h ↦ nomatch h)
    have hruling := ofBody_eq_iff_ruling.mp h
    rcases he with rfl | rfl <;> cases hruling

/-- Every other outcome is that of a ruling on the body that the text carries. -/
theorem decode_eq_iff_ruling {outcome : Except KeyError (Role × Bytes)}
    (hencoding : outcome ≠ .error .invalidEncoding)
    (hchecksum : outcome ≠ .error .invalidChecksum) :
    decode text = outcome ↔ ∃ body, Carries text body ∧ Ruling body outcome := by
  simp only [← Envelope.read_eq_ok_iff_carries]
  cases hread : Envelope.read text with
  | ok body =>
    rw [decode_of_read hread, ofBody_eq_iff_ruling]
    constructor
    · exact fun h ↦ ⟨body, rfl, h⟩
    · rintro ⟨other, hother, h⟩
      rwa [Except.ok.inj hother]
  | error e =>
    rw [decode_of_read_error hread]
    refine iff_of_false ?_ (fun ⟨_, h, _⟩ ↦ nomatch h)
    rcases Envelope.read_error hread with rfl | rfl
    · exact hencoding.symm
    · exact hchecksum.symm

/-- A text is refused as no seed exactly if it carries a body of one byte or without the tag. -/
theorem decode_eq_invalidSeed_iff :
    decode text = .error .invalidSeed ↔
      ∃ body, Carries text body ∧
        (body.length = 1 ∨ (byteBits body).take 5 ≠ digitBits [Role.seed.tag]) := by
  rw [decode_eq_iff_ruling (by simp) (by simp)]
  refine exists_congr fun body ↦ and_congr_right fun hcarries ↦ ?_
  rw [← not_tagged_iff hcarries.1]
  constructor
  · rintro ⟨htag⟩
    exact htag
  · exact .untagged

/-- A text is refused for its role exactly if it carries a tagged body that embeds no public one. -/
theorem decode_eq_invalidPrefixByte_iff :
    decode text = .error .invalidPrefixByte ↔
      ∃ body roleByte, Carries text body ∧ Tagged body ∧ Embeds body roleByte ∧
        ¬ Embeddable roleByte := by
  rw [decode_eq_iff_ruling (by simp) (by simp)]
  constructor
  · rintro ⟨body, hcarries, hruling⟩
    cases hruling with
    | unembeddable roleByte htag hembeds hrole =>
      exact ⟨body, roleByte, hcarries, htag, hembeds, hrole⟩
  · rintro ⟨body, roleByte, hcarries, htag, hembeds, hrole⟩
    exact ⟨body, hcarries, .unembeddable roleByte htag hembeds hrole⟩

/-- A text is refused for its length exactly if it carries a tagged body that embeds a public role
and goes on with so many bytes, and not with 64. -/
theorem decode_eq_invalidSeedLength_iff {got : ℕ} :
    decode text = .error (.invalidSeedLength got) ↔
      ∃ body roleByte, Carries text body ∧ Tagged body ∧ Embeds body roleByte ∧
        Embeddable roleByte ∧ got = body.length - 2 ∧ got ≠ 64 := by
  rw [decode_eq_iff_ruling (by simp) (by simp)]
  constructor
  · rintro ⟨body, hcarries, hruling⟩
    cases hruling with
    | missized role htag hembeds hrole hlength =>
      exact ⟨body, role.byte, hcarries, htag, hembeds, hrole, rfl, hlength⟩
  · rintro ⟨body, roleByte, hcarries, htag, hembeds, hrole, rfl, hlength⟩
    obtain ⟨role, rfl⟩ := hrole.exists_role
    exact ⟨body, hcarries, .missized role htag hembeds hrole hlength⟩

/-- A text is read exactly if it carries a tagged body that embeds a public role and goes on with 64
bytes, and then as that role and these bytes. -/
theorem decode_eq_ok_iff_carries {role : Role} {material : Bytes} :
    decode text = .ok (role, material) ↔
      ∃ body, Carries text body ∧ Tagged body ∧ Embeds body role.byte ∧
        Embeddable role.byte ∧ body.length - 2 = 64 ∧ material = body.drop (body.length - 64) := by
  rw [decode_eq_iff_ruling (by simp) (by simp)]
  constructor
  · rintro ⟨body, hcarries, hruling⟩
    cases hruling with
    | material role htag hembeds hrole hlength =>
      exact ⟨body, hcarries, htag, hembeds, hrole, hlength, rfl⟩
  · rintro ⟨body, hcarries, htag, hembeds, hrole, hlength, rfl⟩
    exact ⟨body, hcarries, .material role htag hembeds hrole hlength⟩

/-- The refusals of reading a seed. -/
theorem error_of_decode {e : KeyError} (h : decode text = .error e) :
    e = .invalidEncoding ∨ e = .invalidChecksum ∨ e = .invalidSeed ∨ e = .invalidPrefixByte ∨
      ∃ got, e = .invalidSeedLength got := by
  by_cases hread : e = .invalidEncoding ∨ e = .invalidChecksum
  · exact hread.imp_right Or.inl
  · rw [not_or] at hread
    rw [decode_eq_iff_ruling (by simp [hread.1]) (by simp [hread.2])] at h
    obtain ⟨body, -, hruling⟩ := h
    cases hruling with
    | untagged => exact Or.inr (Or.inr (Or.inl rfl))
    | unembeddable => exact Or.inr (Or.inr (Or.inr (Or.inl rfl)))
    | missized => exact Or.inr (Or.inr (Or.inr (Or.inr ⟨_, rfl⟩)))

/-- The causes of all outcomes, whatever the text, each of them looked for after those before it. It
is refused for its encoding exactly if it is no base 32 of three bytes or more; for its checksum
exactly if it is such base 32 and the last two bytes are not the checksum of those before; as no
seed exactly if it carries a body of one byte or one that does not begin with the seed tag; for the
embedded role exactly if it carries a body with the tag behind which stand the bits of a byte that
is no public role; for its length exactly if the role is a public one and the bytes behind the
header are not 64, and their count is told. It is read exactly if they are 64, as that role and
these bytes. There is no other outcome. -/
theorem refusals_in_order (text : String) :
    (decode text = .error .invalidEncoding ↔
      ¬ ∃ raw : Bytes, 3 ≤ raw.length ∧ text = Base32.encode raw) ∧
    (decode text = .error .invalidChecksum ↔ Corrupted text) ∧
    (decode text = .error .invalidSeed ↔
      ∃ body, Carries text body ∧
        (body.length = 1 ∨ (byteBits body).take 5 ≠ digitBits [Role.seed.tag])) ∧
    (decode text = .error .invalidPrefixByte ↔
      ∃ body roleByte, Carries text body ∧ Tagged body ∧ Embeds body roleByte ∧
        ¬ Embeddable roleByte) ∧
    (∀ got, decode text = .error (.invalidSeedLength got) ↔
      ∃ body roleByte, Carries text body ∧ Tagged body ∧ Embeds body roleByte ∧
        Embeddable roleByte ∧ got = body.length - 2 ∧ got ≠ 64) ∧
    (∀ role material, decode text = .ok (role, material) ↔
      ∃ body, Carries text body ∧ Tagged body ∧ Embeds body role.byte ∧
        Embeddable role.byte ∧ body.length - 2 = 64 ∧ material = body.drop (body.length - 64)) ∧
    ((∃ role material, decode text = .ok (role, material)) ∨
      decode text = .error .invalidEncoding ∨ decode text = .error .invalidChecksum ∨
      decode text = .error .invalidSeed ∨ decode text = .error .invalidPrefixByte ∨
      ∃ got, decode text = .error (.invalidSeedLength got)) := by
  refine ⟨?_, ?_, decode_eq_invalidSeed_iff, decode_eq_invalidPrefixByte_iff,
    fun _ ↦ decode_eq_invalidSeedLength_iff, fun _ _ ↦ decode_eq_ok_iff_carries,
    ?_⟩
  · rw [decode_eq_error_iff_read (Or.inl rfl), Envelope.read_eq_invalidEncoding_iff]
  · rw [decode_eq_error_iff_read (Or.inr rfl), Envelope.read_eq_invalidChecksum_iff]
  · cases hread : decode text with
    | ok outcome => exact Or.inl ⟨outcome.1, outcome.2, rfl⟩
    | error e => exact Or.inr (by simpa only [Except.error.injEq] using error_of_decode hread)

end Text

/-- A text that is refused for each cause: the empty one, a public key with its last character
mistyped, a body of one byte that is the seed tag, the public key itself, a header of private keys
with nothing behind it, and a header of users with a secret alone behind it. With the public key
behind the secret it is read. -/
theorem refusals_in_order_near_misses :
    decode "" = .error .invalidEncoding ∧
    decode KeyPair.mistypedEnd = .error .invalidChecksum ∧
    decode (Envelope.write [Role.seed.byte]) = .error .invalidSeed ∧
    decode KeyText.publishedUserText = .error .invalidSeed ∧
    decode (Envelope.write [headerHigh .privateKey, headerLow .privateKey]) =
      .error .invalidPrefixByte ∧
    decode (Envelope.write (headerHigh .user :: headerLow .user :: publishedUserSecret)) =
      .error (.invalidSeedLength 32) ∧
    decode publishedUserSeed = .ok (.user, publishedUserMaterial) := by
  have hcarries {body : Bytes} (hbody : body ≠ []) : Carries (Envelope.write body) body :=
    ⟨hbody, rfl⟩
  have hheader (role : Role) (material : Bytes) :
      Tagged (headerHigh role :: headerLow role :: material) ∧
        Embeds (headerHigh role :: headerLow role :: material) role.byte := by
    rw [tagged_cons_cons_iff, embeds_cons_cons_iff, header_iff]
    exact ⟨rfl, headerLow_and_tagMask role⟩
  have hpublic : Embeddable Role.user.byte := ⟨.user, rfl, Or.inl rfl⟩
  refine ⟨?_, ?_, ?_, ?_, ?_, ?_, ?_⟩
  · exact (refusals_in_order _).1.mpr (Envelope.read_eq_invalidEncoding_iff.mp rfl)
  · exact (refusals_in_order _).2.1.mpr KeyPair.corrupted_mistypedEnd
  · exact (refusals_in_order _).2.2.1.mpr ⟨_, hcarries (List.cons_ne_nil _ _), Or.inl rfl⟩
  · exact (refusals_in_order _).2.2.1.mpr ⟨Role.user.byte :: KeyText.publishedUserKey,
      ⟨List.cons_ne_nil _ _, KeyText.write_publishedUserKey.symm⟩, Or.inr (by decide)⟩
  · obtain ⟨htag, hembeds⟩ := hheader .privateKey []
    exact (refusals_in_order _).2.2.2.1.mpr ⟨_, _, hcarries (List.cons_ne_nil _ _), htag, hembeds,
      fun h ↦ nomatch embeddable_byte_iff.mp h⟩
  · obtain ⟨htag, hembeds⟩ := hheader .user publishedUserSecret
    exact (refusals_in_order _).2.2.2.2.1 32 |>.mpr ⟨_, _, hcarries (List.cons_ne_nil _ _), htag,
      hembeds, hpublic, rfl, by decide⟩
  · obtain ⟨htag, hembeds⟩ := hheader .user publishedUserMaterial
    exact (refusals_in_order _).2.2.2.2.2.1 .user _ |>.mpr ⟨_,
      ⟨List.cons_ne_nil _ _, write_publishedUserMaterial.symm⟩, htag, hembeds, hpublic, rfl, rfl⟩

end RoleKey.SeedText
