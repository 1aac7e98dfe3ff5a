import RoleKey.Proofs.KeyTextInverse
import RoleKey.Proofs.VisibleHead
import RoleKey.SeedText

/-!
Writing and reading the text of seed material.

The header of a seed is a role's byte cut in two and put behind the seed tag; as numbers,
`toNat_headerHigh`, `toNat_headerLow` and `toNat_embeddedByte` say how, and `header_iff` that two
bytes are read as the header of a role exactly if the first is the one that is written and the
second is so but for its low three bits. `encode_eq` and `ofBody_eq` go through the two functions
check by check, and `decode_eq_ok_iff` lists all texts that are read as given material of a given
role. `round_trip_with_visible_head` is the round trip, and what the first characters and the other
readers make of the text of a seed.
-/

set_option autoImplicit false
set_option relaxedAutoImplicit false

namespace RoleKey.SeedText

/-! ### The header -/

theorem toNat_headerHigh (role : Role) : (headerHigh role).toNat = 144 + role.byte.toNat / 32 := by
  cases role <;> rfl

theorem toNat_headerLow (role : Role) : (headerLow role).toNat = role.byte.toNat % 32 * 8 := by
  cases role <;> rfl

theorem headerHigh_and_tagMask (role : Role) : headerHigh role &&& tagMask = Role.seed.byte := by
  cases role <;> rfl

/-- Writing leaves the low three bits of the second byte clear. -/
theorem headerLow_and_tagMask (role : Role) : headerLow role &&& tagMask = headerLow role := by
  cases role <;> rfl

/-- The embedded byte is the low three bits of the first byte above the tag bits of the second. -/
theorem toNat_embeddedByte (high low : UInt8) :
    (embeddedByte high low).toNat = high.toNat % 8 * 32 + low.toNat / 8 := by
  have hlow := low.toNat_lt
  have htop : ((high &&& 0x07) <<< 5).toNat = high.toNat % 8 * 2 ^ 5 := by
    rw [UInt8.toNat_shiftLeft, toNat_and_seven, Nat.shiftLeft_eq]
    simp only [UInt8.reduceToNat, Nat.reduceMod, Nat.reducePow]
    omega
  have hrest : ((low &&& tagMask) >>> 3).toNat = low.toNat / 8 := by
    rw [UInt8.toNat_shiftRight, toNat_and_tagMask, Nat.shiftRight_eq_div_pow]
    simp only [UInt8.reduceToNat, Nat.reduceMod, Nat.reducePow]
    omega
  rw [embeddedByte, toNat_or_eq_add htop (by omega), hrest]
  rfl

/-- Two bytes carry the seed tag and a role exactly if the first is the one that is written for the
role, and the second is the one that is written but for its low three bits. -/
theorem header_iff {high low : UInt8} {role : Role} :
    high &&& tagMask = Role.seed.byte ∧ embeddedByte high low = role.byte ↔
      high = headerHigh role ∧ low &&& tagMask = headerLow role := by
  have hhigh := high.toNat_lt
  have hlow := low.toNat_lt
  have hrole := role.byte.toNat_lt
  have hseed : Role.seed.byte.toNat = 144 := rfl
  simp only [← UInt8.toNat_inj, toNat_and_tagMask, toNat_embeddedByte, toNat_headerHigh,
    toNat_headerLow, hseed]
  omega

/-! ### Writing -/

/-- Writing, check by check: the role, and then the length. -/
theorem encode_eq (role : Role) (material : Bytes) : encode role.byte material =
    if role.isPublic = true then
      if material.length = 64 then
        .ok (Envelope.write (headerHigh role :: headerLow role :: material))
      else .error (.invalidSeedLength material.length)
    else .error .invalidPrefixByte := by
  rw [encode, Role.ofByte_byte]
  simp only [bind, Except.bind]
  by_cases hpublic : role.isPublic = true
  · by_cases hlength : material.length = 64
    · simp only [hpublic, hlength, materialLength, if_true]
      rfl
    · simp only [hpublic, hlength, materialLength, if_true, if_false]
      rfl
  · simp only [hpublic, Bool.false_eq_true, if_false]
    rfl

/-- A byte that is no role is refused whatever the material. -/
theorem encode_of_ofByte_error {roleByte : UInt8} {e : KeyError}
    (h : Role.ofByte roleByte = .error e) (material : Bytes) :
    encode roleByte material = .error .invalidPrefixByte := by
  rw [encode, h, Role.ofByte_error h]
  rfl

theorem encode_eq_ok_iff {roleByte : UInt8} {material : Bytes} {text : String} :
    encode roleByte material = .ok text ↔ ∃ role : Role, role.byte = roleByte ∧
      role.isPublic = true ∧ material.length = 64 ∧
        Envelope.write (headerHigh role :: headerLow role :: material) = text := by
  constructor
  · intro h
    cases hrole : Role.ofByte roleByte with
    | error e => simp [encode_of_ofByte_error hrole] at h
    | ok role =>
      rw [Role.ofByte_eq_ok_iff] at hrole
      rw [hrole, encode_eq] at h
      split_ifs at h with hpublic hlength
      exact ⟨role, hrole.symm, hpublic, hlength, Except.ok.inj h⟩
  · rintro ⟨role, rfl, hpublic, hlength, rfl⟩
    rw [encode_eq, if_pos hpublic, if_pos hlength]

/-- A byte that a seed may embed: that of a role which signs, or the one of encryption. -/
def Embeddable (roleByte : UInt8) : Prop :=
  ∃ role : Role, role.byte = roleByte ∧ (role.isSigning = true ∨ role = .curve)

theorem embeddable_byte_iff {role : Role} : Embeddable role.byte ↔ role.isPublic = true := by
  constructor
  · rintro ⟨other, hother, hrole⟩
    obtain rfl := Role.byte_inj.mp hother
    rcases hrole with hsigning | rfl
    · exact Role.isPublic_of_isSigning hsigning
    · rfl
  · intro hpublic
    refine ⟨role, rfl, ?_⟩
    cases role <;> simp_all [Role.isPublic, Role.isSigning]

theorem exists_encode_eq_ok_iff {roleByte : UInt8} {material : Bytes} :
    (∃ text, encode roleByte material = .ok text) ↔
      Embeddable roleByte ∧ material.length = 64 := by
  constructor
  · rintro ⟨text, htext⟩
    obtain ⟨role, rfl, hpublic, hlength, -⟩ := encode_eq_ok_iff.mp htext
    exact ⟨embeddable_byte_iff.mpr hpublic, hlength⟩
  · rintro ⟨⟨role, rfl, hrole⟩, hlength⟩
    have hpublic := embeddable_byte_iff.mp ⟨role, rfl, hrole⟩
    exact ⟨_, encode_eq_ok_iff.mpr ⟨role, rfl, hpublic, hlength, rfl⟩⟩

/-- The role is refused before the length is looked at. -/
theorem encode_of_not_embeddable {roleByte : UInt8} (h : ¬ Embeddable roleByte)
    (material : Bytes) : encode roleByte material = .error .invalidPrefixByte := by
  cases hrole : Role.ofByte roleByte with
  | error e => exact encode_of_ofByte_error hrole material
  | ok role =>
    obtain rfl := Role.ofByte_eq_ok_iff.mp hrole
    rw [embeddable_byte_iff] at h
    rw [encode_eq, if_neg h]

theorem encode_of_length_ne {roleByte : UInt8} {material : Bytes} (h : Embeddable roleByte)
    (hlength : material.length ≠ 64) :
    encode roleByte material = .error (.invalidSeedLength material.length) := by
  obtain ⟨role, rfl, hrole⟩ := h
  have hpublic := embeddable_byte_iff.mp ⟨role, rfl, hrole⟩
  rw [encode_eq, if_pos hpublic, if_neg hlength]

/-! ### Reading -/

/-- Reading an opened body, check by check: the tag, the embedded role, and then the length. -/
theorem ofBody_eq (high low : UInt8) (material : Bytes) : ofBody (high :: low :: material) =
    if high &&& tagMask = Role.seed.byte then
      match Role.ofByte (embeddedByte high low) with
      | .ok role =>
        if role.isPublic = true then
          if material.length = 64 then .ok (role, material)
          else .error (.invalidSeedLength material.length)
        else .error .invalidPrefixByte
      | .error e => .error e
    else .error .invalidSeed := by
  rw [ofBody]
  by_cases htag : high &&& tagMask = Role.seed.byte
  · simp only [htag, if_true]
    cases Role.ofByte (embeddedByte high low) with
    | error e => rfl
    | ok role =>
      simp only [bind, Except.bind]
      by_cases hpublic : role.isPublic = true
      · by_cases hlength : material.length = 64
        · simp only [hpublic, hlength, materialLength, if_true]
          rfl
        · simp only [hpublic, hlength, materialLength, if_true, if_false]
          rfl
      · simp only [hpublic, Bool.false_eq_true, if_false]
        rfl
  · simp only [htag, if_false]
    rfl

theorem ofBody_eq_ok_iff {body material : Bytes} {role : Role} :
    ofBody body = .ok (role, material) ↔ role.isPublic = true ∧ material.length = 64 ∧
      ∃ low, low &&& tagMask = headerLow role ∧ headerHigh role :: low :: material = body := by
  constructor
  · intro h
    match body, h with
    | high :: low :: rest, h =>
      rw [ofBody_eq] at h
      have htag : high &&& tagMask = Role.seed.byte := by
        by_contra htag
        simp [htag] at h
      rw [if_pos htag] at h
      cases hrole : Role.ofByte (embeddedByte high low) with
      | error e => simp [hrole] at h
      | ok other =>
        have hpublic : other.isPublic = true := by
          by_contra hpublic
          simp [hrole, hpublic] at h
        have hlength : rest.length = 64 := by
          by_contra hlength
          simp [hrole, hpublic, hlength] at h
        simp only [hrole, hpublic, hlength, if_true, Except.ok.injEq, Prod.mk.injEq] at h
        obtain ⟨rfl, rfl⟩ := h
        rw [Role.ofByte_eq_ok_iff] at hrole
        obtain ⟨rfl, hlow⟩ := header_iff.mp ⟨htag, hrole⟩
        exact ⟨hpublic, hlength, low, hlow, rfl⟩
  · rintro ⟨hpublic, hlength, low, hlow, rfl⟩
    obtain ⟨htag, hrole⟩ := header_iff.mpr ⟨rfl, hlow⟩
    rw [ofBody_eq, if_pos htag, hrole, Role.ofByte_byte]
    dsimp only
    rw [if_pos hpublic, if_pos hlength]

theorem decode_of_read {text : String} {body : Bytes} (h : Envelope.read text = .ok body) :
    decode text = ofBody body := by
  rw [decode, h]
  rfl

theorem decode_of_read_error {text : String} {e : KeyError} (h : Envelope.read text = .error e) :
    decode text = .error e := by
  rw [decode, h]
  rfl

/-- A text is read as material of a public role exactly if it is the envelope of a header of that
role and of the material, of 64 bytes. The low three bits of the header's second byte are free. -/
theorem decode_eq_ok_iff {text : String} {role : Role} {material : Bytes} :
    decode text = .ok (role, material) ↔ role.isPublic = true ∧ material.length = 64 ∧
      ∃ low, low &&& tagMask = headerLow role ∧
        Envelope.write (headerHigh role :: low :: material) = text := by
  constructor
  · intro h
    cases hread : Envelope.read text with
    | error e => simp [decode_of_read_error hread] at h
    | ok body =>
      rw [decode_of_read hread] at h
      obtain ⟨hpublic, hlength, low, hlow, rfl⟩ := ofBody_eq_ok_iff.mp h
      exact ⟨hpublic, hlength, low, hlow, (Envelope.read_eq_ok_iff.mp hread).2⟩
  · rintro ⟨hpublic, hlength, low, hlow, rfl⟩
    rw [decode_of_read (Envelope.read_write (List.cons_ne_nil _ _))]
    exact ofBody_eq_ok_iff.mpr ⟨hpublic, hlength, low, hlow, rfl⟩

/-- What is written for a role is read as that role and the same material. -/
theorem decode_of_encode {role : Role} {material : Bytes} {text : String}
    (h : encode role.byte material = .ok text) : decode text = .ok (role, material) := by
  obtain ⟨other, hother, hpublic, hlength, rfl⟩ := encode_eq_ok_iff.mp h
  obtain rfl := Role.byte_inj.mp hother
  exact decode_eq_ok_iff.mpr ⟨hpublic, hlength, headerLow other, headerLow_and_tagMask other, rfl⟩

/-! ### What others make of a seed -/

/-- The text of a seed begins with the letter of seeds and then that of the embedded role. -/
theorem toList_write_header {role : Role} {low : UInt8}
    (hlow : low &&& tagMask = headerLow role) (material : Bytes) :
    ∃ rest, (Envelope.write (headerHigh role :: low :: material)).toList =
      'S' :: role.leadingChar :: rest := by
  obtain ⟨hi, lo, rest, hchars, hhi, hlo, hnext⟩ :=
    Envelope.toList_write (headerHigh role) (low :: material)
  have hlast := hnext low material rfl
  have hrole := role.byte.toNat_lt
  have hbits := congrArg UInt8.toNat hlow
  rw [toNat_and_tagMask, toNat_headerLow] at hbits
  rw [toNat_headerHigh] at hhi hlo
  have hseed : hi = Role.seed.tag := by
    apply Fin.ext
    change hi.val = 18
    omega
  have hembedded : lo = role.tag := by
    apply Fin.ext
    change lo.val = role.byte.toNat / 8
    omega
  refine ⟨rest, ?_⟩
  rw [hchars, hseed, hembedded]
  rfl

/-- The first two characters of a seed claim the seed role. -/
theorem roleOf_write_header (role : Role) (rest : Bytes) :
    KeyText.roleOf (Envelope.write (headerHigh role :: rest)) = some .seed := by
  rw [KeyText.roleOf_write, KeyText.roleOfByte, if_pos (headerHigh_and_tagMask role)]

/-- As key material a seed is read under the seed role only. -/
theorem keyText_decode_write_header (role other : Role) (rest : Bytes) :
    KeyText.decode other.byte (Envelope.write (headerHigh role :: rest)) =
      if other = .seed then .ok rest else .error .invalidPrefixByte := by
  have hseed : KeyText.claimed .seed (headerHigh role) = Role.seed.byte := by
    rw [KeyText.claimed_eq_byte_iff, if_pos rfl, headerHigh_and_tagMask]
  rw [KeyText.decode_of_read other (Envelope.read_write (List.cons_ne_nil _ _))]
  refine if_congr ⟨fun hother ↦ KeyText.claimed_unique hother hseed, ?_⟩ rfl rfl
  rintro rfl
  exact hseed

/-! ### A published seed -/

/-- The secret of a published user key pair. -/
def publishedUserSecret : Bytes :=
  [0xc5, 0xab, 0x59, 0x6a, 0xf7, 0xdb, 0x49, 0x96, 0xdf, 0xc9, 0xfa, 0x0f, 0x95, 0xcf, 0xc8, 0xb7,
    0xaa, 0xdf, 0x19, 0xc5, 0xb0, 0xd8, 0x32, 0x1e, 0x8c, 0x2c, 0xfd, 0x14, 0x84, 0x2f, 0x94, 0x3a]

/-- The seed material of that pair. -/
def publishedUserMaterial : Bytes := publishedUserSecret ++ KeyText.publishedUserKey

/-- The text of its seed. -/
def publishedUserSeed : String :=
  "SUAMLK2ZNL35WSMW37E7UD4VZ7ELPKW7DHC3BWBSD2GCZ7IUQQXZIOUV2363544C4Q2LOBQFUAETBQLE4HZLQ3J4A6IT" ++
  "GBKLSDVFKOWUMJCXQ"

theorem write_publishedUserMaterial :
    Envelope.write (headerHigh .user :: headerLow .user :: publishedUserMaterial) =
      publishedUserSeed := by
  have hmiddle : Checksum.feedBits 0
      (byteBits (headerHigh .user :: headerLow .user :: publishedUserSecret)) = 3377 := by
    decide +kernel
  have hsum : Checksum.feedBits 3377 (byteBits KeyText.publishedUserKey) = 30789 := by
    decide +kernel
  rw [publishedUserMaterial, ← List.cons_append, ← List.cons_append,
    Envelope.write_append hmiddle hsum]
  decide +kernel

theorem encode_publishedUserMaterial :
    encode Role.user.byte publishedUserMaterial = .ok publishedUserSeed :=
  encode_eq_ok_iff.mpr ⟨.user, rfl, rfl, rfl, write_publishedUserMaterial⟩

/-! ### The round trip -/

/-- Seed material is written exactly for the roles that a seed may embed and if it is 64 bytes long,
and the refusals tell which of the two fails, the role first. What is written is read as the same
role and material, and as key material of the seed role it is the second byte of the header and the
material. Whatever text is read as a seed begins with `S` and the letter of the embedded role,
claims the seed role, is key material of the seed role that ends in the material, and is refused as
key material of every other role. -/
theorem round_trip_with_visible_head :
    (∀ (roleByte : UInt8) (material : Bytes),
      ((∃ text, encode roleByte material = .ok text) ↔
        Embeddable roleByte ∧ material.length = 64) ∧
      (¬ Embeddable roleByte → encode roleByte material = .error .invalidPrefixByte) ∧
      (Embeddable roleByte → material.length ≠ 64 →
        encode roleByte material = .error (.invalidSeedLength material.length)) ∧
      ∀ text, encode roleByte material = .ok text →
        (∃ role : Role, role.byte = roleByte ∧ decode text = .ok (role, material)) ∧
        KeyText.decode Role.seed.byte text = .ok ([(roleByte &&& 0x1F) <<< 3] ++ material)) ∧
    (∀ (text : String) (role : Role) (material : Bytes), decode text = .ok (role, material) →
      (∃ rest, text.toList = 'S' :: role.leadingChar :: rest) ∧
      KeyText.roleOf text = some .seed ∧
      (∃ payload, KeyText.decode Role.seed.byte text = .ok payload ∧ payload.length = 65 ∧
        payload.drop (payload.length - 64) = material) ∧
      ∀ other : Role, other ≠ .seed →
        KeyText.decode other.byte text = .error .invalidPrefixByte) := by
  constructor
  · intro roleByte material
    refine ⟨exists_encode_eq_ok_iff, fun hrefused ↦ encode_of_not_embeddable hrefused material,
      encode_of_length_ne, ?_⟩
    intro text htext
    obtain ⟨role, rfl, -, -, hwrite⟩ := encode_eq_ok_iff.mp htext
    refine ⟨⟨role, rfl, decode_of_encode htext⟩, ?_⟩
    rw [← hwrite, keyText_decode_write_header, if_pos rfl]
    rfl
  · intro text role material hread
    obtain ⟨-, hlength, low, hlow, rfl⟩ := decode_eq_ok_iff.mp hread
    refine ⟨toList_write_header hlow material, roleOf_write_header role _, ?_, ?_⟩
    · refine ⟨low :: material, ?_, by rw [List.length_cons, hlength], ?_⟩
      · rw [keyText_decode_write_header, if_pos rfl]
      · rw [List.length_cons, hlength]
        rfl
    · intro other hother
      rw [keyText_decode_write_header, if_neg hother]

/-- The published material of a user is written under the role of users, read again, and read as no
public key of a user. With a byte less it is refused for its length. -/
theorem round_trip_with_visible_head_user :
    encode Role.user.byte publishedUserMaterial = .ok publishedUserSeed ∧
    decode publishedUserSeed = .ok (.user, publishedUserMaterial) ∧
    KeyText.decode Role.user.byte publishedUserSeed = .error .invalidPrefixByte ∧
    encode Role.user.byte (publishedUserMaterial.drop 1) = .error (.invalidSeedLength 63) := by
  have hwritten : encode Role.user.byte publishedUserMaterial = .ok publishedUserSeed :=
    encode_eq_ok_iff.mpr ⟨.user, rfl, rfl, rfl, write_publishedUserMaterial⟩
  have hembeddable : Embeddable Role.user.byte := ⟨.user, rfl, Or.inl rfl⟩
  obtain ⟨hforms, hhead⟩ := round_trip_with_visible_head
  obtain ⟨role, hrole, hread⟩ := ((hforms _ _).2.2.2 _ hwritten).1
  obtain rfl := Role.byte_inj.mp hrole
  refine ⟨hwritten, hread, ?_, ?_⟩
  · exact (hhead _ _ _ hread).2.2.2 .user (by decide)
  · exact (hforms _ _).2.2.1 hembeddable (by decide)

end RoleKey.SeedText
