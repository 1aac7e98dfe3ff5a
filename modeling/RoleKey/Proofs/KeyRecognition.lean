import RoleKey.KeyPair
import RoleKey.Proofs.KeyTextInverse
import RoleKey.Proofs.Outcomes
import RoleKey.Proofs.VisibleHead
import RoleKey.Recognition

/-!
Every way to recognise the text of a key comes to the same.

The role that a text claims is told from its first two characters, or from its first byte once the
text is read. `roleOfByte_eq_some_iff` says that a first byte shows the one role that it claims, so
that the two agree on every text that is read (`roleOf_of_decode`). From there each check is a
statement on reading: `isEncoding_iff`, `isPublicKeyOf_iff`, `isPublicKey_iff`, and for the pairs
that are made of a public key `ofPublicKey_eq_ok_iff` and `ofAnyPublicKey_eq_ok_iff`.
`recognition_agrees` puts them side by side.
-/

set_option autoImplicit false
set_option relaxedAutoImplicit false

namespace RoleKey

/-! ### The role that a text claims -/

namespace KeyText

/-- A first byte shows the role that it claims, and no other. -/
theorem roleOfByte_eq_some_iff {first : UInt8} {role : Role} :
    roleOfByte first = some role ↔ claimed role first = role.byte := by
  rw [claimed_eq_byte_iff, roleOfByte]
  by_cases htag : first &&& tagMask = Role.seed.byte
  · -- The seed tag may come with any of the three bits below it, under the seed role only.
    rw [if_pos htag, Option.some.injEq]
    constructor
    · rintro rfl
      rwa [if_pos rfl]
    · intro h
      split_ifs at h with hseed
      · exact hseed.symm
      · rw [h, Role.byte_and_tagMask] at htag
        exact (Role.byte_inj.mp htag).symm
  · rw [if_neg htag, Role.ofByte?_eq_some_iff]
    split_ifs with hseed
    · refine iff_of_false ?_ htag
      rintro rfl
      rw [hseed, Role.byte_and_tagMask] at htag
      exact htag rfl
    · rfl

/-- A text that is read under a role claims that role by its first characters. -/
theorem roleOf_of_decode {role : Role} {text : String} {payload : Bytes}
    (h : decode role.byte text = .ok payload) : roleOf text = some role := by
  obtain ⟨first, hclaimed, rfl⟩ := decode_eq_ok_iff.mp h
  rw [roleOf_write, roleOfByte_eq_some_iff]
  exact hclaimed

/-- A text that is read under a role begins with the character of that role. -/
theorem toList_of_decode {role : Role} {text : String} {payload : Bytes}
    (h : decode role.byte text = .ok payload) :
    ∃ rest, text.toList = role.leadingChar :: rest := by
  obtain ⟨first, hclaimed, rfl⟩ := decode_eq_ok_iff.mp h
  obtain ⟨hi, lo, rest, hchars, hhi, -, -⟩ := Envelope.toList_write first payload
  have htag : hi = role.tag := by
    apply Fin.ext
    have hmask := congrArg UInt8.toNat (and_tagMask_of_claimed hclaimed)
    rw [toNat_and_tagMask] at hmask
    change hi.val = role.byte.toNat / 8
    omega
  exact ⟨Base32.letter lo :: rest, by rw [hchars, htag]; rfl⟩

/-- The text of a payload has a character for every five bits of role, payload and checksum. -/
theorem length_of_decode {role : Role} {text : String} {payload : Bytes}
    (h : decode role.byte text = .ok payload) :
    text.length = (8 * (payload.length + 3) + 4) / 5 := by
  obtain ⟨first, -, rfl⟩ := decode_eq_ok_iff.mp h
  rw [Envelope.length_write, List.length_cons]

/-- Under a role other than that of seeds reading is the inverse of writing. -/
theorem decode_eq_ok_iff_encode {role : Role} (hrole : role ≠ .seed) {text : String}
    {payload : Bytes} :
    decode role.byte text = .ok payload ↔ encode role.byte payload = .ok text := by
  rw [decode_eq_ok_iff, encode_byte, Except.ok.injEq]
  simp only [claimed_eq_byte_iff, if_neg hrole, exists_eq_left]

end KeyText

/-! ### Checks on texts -/

namespace Recognition

open KeyText

/-- A text is well formed exactly if it is read under some role. -/
theorem isEncoding_iff {text : String} :
    isEncoding text = true ↔
      ∃ (role : Role) (payload : Bytes), decode role.byte text = .ok payload := by
  constructor
  · intro h
    rw [isEncoding, Bool.and_eq_true] at h
    obtain ⟨hread, hrole⟩ := h
    obtain ⟨role, hrole⟩ := Option.isSome_iff_exists.mp hrole
    cases hopened : Envelope.read text with
    | error e => simp [hopened, Except.toOption] at hread
    | ok body =>
      obtain ⟨hbody, rfl⟩ := Envelope.read_eq_ok_iff.mp hopened
      obtain ⟨first, payload, rfl⟩ := List.exists_cons_of_ne_nil hbody
      rw [roleOf_write, roleOfByte_eq_some_iff] at hrole
      exact ⟨role, payload, decode_eq_ok_iff.mpr ⟨first, hrole, rfl⟩⟩
  · rintro ⟨role, payload, h⟩
    obtain ⟨first, -, hwrite⟩ := decode_eq_ok_iff.mp h
    have hread := Envelope.read_eq_ok_iff.mpr ⟨List.cons_ne_nil first payload, hwrite⟩
    simp [isEncoding, hread, roleOf_of_decode h, Except.toOption]

/-- A text is a public key of a role exactly if it is read under the role as 32 bytes. -/
theorem isPublicKeyOf_iff {role : Role} {text : String} :
    isPublicKeyOf role text = true ↔
      ∃ payload : Bytes, payload.length = 32 ∧ decode role.byte text = .ok payload := by
  rw [isPublicKeyOf]
  cases decode role.byte text with
  | error e => simp
  | ok payload => simp [publicLength]

/-- A text is a public key of one role at most. -/
theorem isPublicKeyOf_unique {role other : Role} {text : String}
    (h : isPublicKeyOf role text = true) (hother : isPublicKeyOf other text = true) :
    role = other := by
  obtain ⟨_, -, hread⟩ := isPublicKeyOf_iff.mp h
  obtain ⟨_, -, hread'⟩ := isPublicKeyOf_iff.mp hother
  exact role_unique hread hread'

theorem roleOf_of_isPublicKeyOf {role : Role} {text : String}
    (h : isPublicKeyOf role text = true) : roleOf text = some role := by
  obtain ⟨_, -, hread⟩ := isPublicKeyOf_iff.mp h
  exact roleOf_of_decode hread

/-- A text is a public key exactly if it is one of some public role. -/
theorem isPublicKey_iff {text : String} :
    isPublicKey text = true ↔
      ∃ role : Role, role.isPublic = true ∧ isPublicKeyOf role text = true := by
  constructor
  · intro h
    rw [isPublicKey] at h
    cases hrole : roleOf text with
    | none => simp [hrole] at h
    | some role =>
      rw [hrole] at h
      exact ⟨role, Bool.and_eq_true_iff.mp h⟩
  · rintro ⟨role, hpublic, hkey⟩
    rw [isPublicKey, roleOf_of_isPublicKeyOf hkey]
    exact Bool.and_eq_true_iff.mpr ⟨hpublic, hkey⟩

/-- Public keys of roles that sign are the public keys that do not claim to be for encryption. -/
theorem exists_isSigning_isPublicKeyOf_iff {text : String} :
    (∃ role : Role, role.isSigning = true ∧ isPublicKeyOf role text = true) ↔
      isPublicKey text = true ∧ roleOf text ≠ some .curve := by
  rw [isPublicKey_iff]
  constructor
  · rintro ⟨role, hsigning, hkey⟩
    refine ⟨⟨role, Role.isPublic_of_isSigning hsigning, hkey⟩, ?_⟩
    rw [roleOf_of_isPublicKeyOf hkey, ne_eq, Option.some.injEq]
    exact Role.ne_curve_of_isSigning hsigning
  · rintro ⟨⟨role, hpublic, hkey⟩, hcurve⟩
    rw [roleOf_of_isPublicKeyOf hkey, ne_eq, Option.some.injEq] at hcurve
    exact ⟨role, (Role.isPublic_iff.mp hpublic).resolve_right hcurve, hkey⟩

/-- Every public key has 56 characters. -/
theorem length_of_isPublicKeyOf {role : Role} {text : String}
    (h : isPublicKeyOf role text = true) : text.length = 56 := by
  obtain ⟨payload, hlength, hread⟩ := isPublicKeyOf_iff.mp h
  rw [length_of_decode hread, hlength]

end Recognition

/-! ### Pairs from public keys -/

namespace KeyPair

/-- A pair is made from the text of a public key exactly if the role signs and the text is read
under it as the 32 bytes of the key. -/
theorem ofPublicKey_eq_ok_iff {role : Role} {text : String} {pair : KeyPair} :
    ofPublicKey role text = .ok pair ↔ role.isSigning = true ∧
      ∃ key : PublicOctets, KeyText.decode role.byte text = .ok key.bytes ∧
        publicOnly role key = pair := by
  rw [ofPublicKey]
  by_cases hsigning : role.isSigning = true
  · simp only [hsigning, if_true, bind_eq_ok_iff, true_and]
    constructor
    · rintro ⟨payload, hread, hmade⟩
      cases hkey : Octets.ofBytes? verifyingLength payload with
      | none => simp [hkey] at hmade
      | some key =>
        rw [hkey] at hmade
        rw [Octets.ofBytes?_eq_some_iff.mp hkey] at hread
        exact ⟨key, hread, Except.ok.inj hmade⟩
    · rintro ⟨key, hread, rfl⟩
      refine ⟨key.bytes, hread, ?_⟩
      rw [Octets.ofBytes?_bytes]
      rfl
  · rw [if_neg hsigning]
    exact iff_of_false (fun h ↦ nomatch h) fun h ↦ hsigning h.1

/-- A pair is made from the text of any public key exactly if it is made from it under some
role. -/
theorem ofAnyPublicKey_eq_ok_iff {text : String} {pair : KeyPair} :
    ofAnyPublicKey text = .ok pair ↔ ∃ role, ofPublicKey role text = .ok pair := by
  rw [ofAnyPublicKey]
  constructor
  · intro h
    cases hrole : KeyText.roleOf text with
    | none => simp [hrole] at h
    | some role =>
      simp only [hrole] at h
      split_ifs at h
      exact ⟨role, h⟩
  · rintro ⟨role, h⟩
    obtain ⟨hsigning, key, hread, -⟩ := ofPublicKey_eq_ok_iff.mp h
    simp only [KeyText.roleOf_of_decode hread, hsigning, if_true]
    exact h

theorem exists_ofPublicKey_iff {role : Role} (hsigning : role.isSigning = true) {text : String} :
    (∃ pair, ofPublicKey role text = .ok pair) ↔ Recognition.isPublicKeyOf role text = true := by
  rw [Recognition.isPublicKeyOf_iff]
  constructor
  · rintro ⟨pair, h⟩
    obtain ⟨-, key, hread, -⟩ := ofPublicKey_eq_ok_iff.mp h
    exact ⟨key.bytes, key.length_eq, hread⟩
  · rintro ⟨payload, hlength, hread⟩
    exact ⟨_, ofPublicKey_eq_ok_iff.mpr ⟨hsigning, ⟨payload, hlength⟩, hread, rfl⟩⟩

/-- The pair of a public key's text gives that text back. -/
theorem publicKey_of_ofPublicKey (S : Scheme) {role : Role} {text : String} {pair : KeyPair}
    (h : ofPublicKey role text = .ok pair) : pair.publicKey S = .ok text := by
  obtain ⟨hsigning, key, hread, rfl⟩ := ofPublicKey_eq_ok_iff.mp h
  have hseed := Role.ne_seed_of_isPublic (Role.isPublic_of_isSigning hsigning)
  exact (KeyText.decode_eq_ok_iff_encode hseed).mp hread

end KeyPair

/-! ### All of them together -/

/-- Some check or some constructor of pairs takes the text for a public key. -/
def TakenForPublicKey (text : String) : Prop :=
  Recognition.isPublicKey text = true ∨
    (∃ role : Role, role.isSigning = true ∧ Recognition.isPublicKeyOf role text = true) ∨
    (∃ role pair, KeyPair.ofPublicKey role text = .ok pair) ∨
    ∃ pair, KeyPair.ofAnyPublicKey text = .ok pair

theorem TakenForPublicKey.isPublicKey {text : String} (h : TakenForPublicKey text) :
    Recognition.isPublicKey text = true := by
  have hof {role : Role} {pair : KeyPair} (h : KeyPair.ofPublicKey role text = .ok pair) :
      Recognition.isPublicKey text = true := by
    obtain ⟨hsigning, -⟩ := KeyPair.ofPublicKey_eq_ok_iff.mp h
    exact Recognition.isPublicKey_iff.mpr ⟨role, Role.isPublic_of_isSigning hsigning,
      (KeyPair.exists_ofPublicKey_iff hsigning).mp ⟨pair, h⟩⟩
  rcases h with hkey | hkey | ⟨role, pair, hpair⟩ | ⟨pair, hpair⟩
  · exact hkey
  · exact (Recognition.exists_isSigning_isPublicKeyOf_iff.mp hkey).1
  · exact hof hpair
  · obtain ⟨role, hpair⟩ := KeyPair.ofAnyPublicKey_eq_ok_iff.mp hpair
    exact hof hpair

/-- All ways to recognise a text agree. A text that is read under a role claims that role and begins
with its character, and it is well formed exactly if it is read under some role. It is a public key
exactly if it is written for a public role and 32 bytes; it is one of at most one role, and of a
role that signs exactly if it is one at all and does not claim to be for encryption. A pair is made
of it under a role that signs exactly if it is a public key of that role, and gives the text back;
a pair is made of it under the role that it claims exactly if the same pair is made under a given
one. So what is taken for a public key has 56 characters. -/
theorem recognition_agrees (text : String) :
    (∀ (role : Role) (payload : Bytes), KeyText.decode role.byte text = .ok payload →
      KeyText.roleOf text = some role ∧ ∃ rest, text.toList = role.leadingChar :: rest) ∧
    (Recognition.isEncoding text = true ↔
      ∃ (role : Role) (payload : Bytes), KeyText.decode role.byte text = .ok payload) ∧
    (Recognition.isPublicKey text = true ↔
      ∃ (role : Role) (payload : Bytes), role.isPublic = true ∧ payload.length = 32 ∧
        KeyText.encode role.byte payload = .ok text) ∧
    (∀ role other : Role, Recognition.isPublicKeyOf role text = true →
      Recognition.isPublicKeyOf other text = true → role = other) ∧
    ((∃ role : Role, role.isSigning = true ∧ Recognition.isPublicKeyOf role text = true) ↔
      Recognition.isPublicKey text = true ∧ KeyText.roleOf text ≠ some .curve) ∧
    (∀ role : Role, role.isSigning = true →
      ((∃ pair, KeyPair.ofPublicKey role text = .ok pair) ↔
        Recognition.isPublicKeyOf role text = true) ∧
      ∀ (S : Scheme) (pair : KeyPair), KeyPair.ofPublicKey role text = .ok pair →
        pair.publicKey S = .ok text) ∧
    (∀ pair : KeyPair, KeyPair.ofAnyPublicKey text = .ok pair ↔
      ∃ role : Role, role.isSigning = true ∧ KeyPair.ofPublicKey role text = .ok pair) ∧
    (TakenForPublicKey text → text.length = 56) := by
  refine ⟨fun role payload h ↦ ⟨KeyText.roleOf_of_decode h, KeyText.toList_of_decode h⟩,
    Recognition.isEncoding_iff, ?_, fun _ _ ↦ Recognition.isPublicKeyOf_unique,
    Recognition.exists_isSigning_isPublicKeyOf_iff, fun role hsigning ↦
      ⟨KeyPair.exists_ofPublicKey_iff hsigning, fun S _ ↦ KeyPair.publicKey_of_ofPublicKey S⟩,
    fun pair ↦ ?_, fun htaken ↦ ?_⟩
  · rw [Recognition.isPublicKey_iff]
    refine exists_congr fun role ↦ ?_
    rw [Recognition.isPublicKeyOf_iff, ← exists_and_left]
    refine exists_congr fun payload ↦ and_congr_right fun hpublic ↦ and_congr_right fun _ ↦ ?_
    exact KeyText.decode_eq_ok_iff_encode (Role.ne_seed_of_isPublic hpublic)
  · rw [KeyPair.ofAnyPublicKey_eq_ok_iff]
    refine exists_congr fun role ↦ ⟨fun h ↦ ?_, And.right⟩
    exact ⟨(KeyPair.ofPublicKey_eq_ok_iff.mp h).1, h⟩
  · obtain ⟨role, -, hkey⟩ := Recognition.isPublicKey_iff.mp htaken.isPublicKey
    exact Recognition.length_of_isPublicKeyOf hkey

/-- The published text of a user's public key claims the user role, is a public key of users and of
no other role, and makes the pair that gives it back. -/
theorem recognition_agrees_user_key :
    KeyText.decode Role.user.byte KeyText.publishedUserText = .ok KeyText.publishedUserKey ∧
    KeyText.roleOf KeyText.publishedUserText = some .user ∧
    Role.user.isSigning = true ∧
    Recognition.isPublicKeyOf .user KeyText.publishedUserText = true ∧
    (∀ other : Role, Recognition.isPublicKeyOf other KeyText.publishedUserText = true →
      other = .user) ∧
    (∃ pair, KeyPair.ofAnyPublicKey KeyText.publishedUserText = .ok pair ∧
      ∀ S : Scheme, pair.publicKey S = .ok KeyText.publishedUserText) ∧
    TakenForPublicKey KeyText.publishedUserText ∧ KeyText.publishedUserText.length = 56 := by
  obtain ⟨hclaims, -, -, hunique, -, hpairs, hany, hlength⟩ :=
    recognition_agrees KeyText.publishedUserText
  have hread := KeyText.decode_publishedUserText
  have hkey : Recognition.isPublicKeyOf .user KeyText.publishedUserText = true :=
    Recognition.isPublicKeyOf_iff.mpr ⟨_, rfl, hread⟩
  have htaken : TakenForPublicKey KeyText.publishedUserText := Or.inr (Or.inl ⟨.user, rfl, hkey⟩)
  obtain ⟨hmade, hback⟩ := hpairs .user rfl
  obtain ⟨pair, hpair⟩ := hmade.mpr hkey
  exact ⟨hread, (hclaims _ _ hread).1, rfl, hkey, fun other hother ↦ hunique _ _ hother hkey,
    ⟨pair, (hany pair).mpr ⟨.user, rfl, hpair⟩, fun S ↦ hback S pair hpair⟩, htaken,
    hlength htaken⟩

end RoleKey
