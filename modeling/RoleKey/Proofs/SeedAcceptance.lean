import RoleKey.Proofs.SeedCanonicality

/-!
Which texts make a pair as a seed, and why the others do not.

Once the text of a seed is read, two checks are left: the embedded role has to sign, and the second
half of the material has to be the public half of the first (`ofSeed_of_decode`). A text that is
read has material of the one length that there is (`exists_material_of_decode`), so that the check
of the length, which stands between the two, never fails. A text of a seed has 109 characters, so
that none begins with another. `ofSeed_accepts_consistent_seeds` says which texts are accepted and
how each other one is refused.
-/

set_option autoImplicit false
set_option relaxedAutoImplicit false

namespace RoleKey

namespace SeedText

/-- Whatever text is read as a seed has material of full length. -/
theorem exists_material_of_decode {text : String} {role : Role} {bytes : Bytes}
    (h : decode text = .ok (role, bytes)) :
    ∃ material : KeyPair.Material, material.bytes = bytes :=
  ⟨⟨bytes, (decode_eq_ok_iff.mp h).2.1⟩, rfl⟩

/-- Whatever text is read as a seed has 109 characters. -/
theorem length_of_decode {text : String} {role : Role} {bytes : Bytes}
    (h : decode text = .ok (role, bytes)) : text.length = 109 := by
  obtain ⟨-, hlength, low, -, rfl⟩ := decode_eq_ok_iff.mp h
  rw [Envelope.length_write, List.length_cons, List.length_cons, hlength]

end SeedText

namespace KeyPair

variable {S : Scheme} {text : String} {role : Role}

/-- What refuses the text of a seed refuses to make a pair of it, in the same words. -/
theorem ofSeed_of_decode_error {e : KeyError} (h : SeedText.decode text = .error e) :
    ofSeed S text = .error e := by
  rw [ofSeed, h]
  rfl

/-- Making a pair of a seed that is read, check by check: the role, and then the public half. -/
theorem ofSeed_of_decode {material : Material}
    (h : SeedText.decode text = .ok (role, material.bytes)) :
    ofSeed S text =
      if role.isSigning = true then
        if material.last = S.publicOf material.first then .ok (full role material.first)
        else .error .invalidSeed
      else .error .invalidPrefixByte := by
  rw [ofSeed, h]
  simp only [bind, Except.bind]
  by_cases hsigning : role.isSigning = true
  · simp only [hsigning, if_true, Octets.ofBytes?_bytes]
    rfl
  · simp only [hsigning]
    rfl

theorem length_of_ofSeed {pair : KeyPair} (h : ofSeed S text = .ok pair) : text.length = 109 := by
  obtain ⟨role, secret, -, hread, -⟩ := ofSeed_eq_ok_iff.mp h
  exact SeedText.length_of_decode hread

/-- No text of a seed begins with another. -/
theorem ofSeed_ne_ok_of_isPrefix {pair : KeyPair} (h : ofSeed S text = .ok pair) {other : String}
    (hother : other ≠ text) (hcut : other.toList <+: text.toList ∨ text.toList <+: other.toList)
    (made : KeyPair) : ofSeed S other ≠ .ok made := by
  intro hmade
  have hlength : other.toList.length = text.toList.length := by
    rw [String.length_toList, String.length_toList, length_of_ofSeed hmade, length_of_ofSeed h]
  apply hother
  apply String.toList_inj.mp
  rcases hcut with hfront | hback
  · exact hfront.eq_of_length hlength
  · exact (hback.eq_of_length hlength.symm).symm

/-- The check of the material's length never fails: a seed of another length is not read. -/
theorem ofSeed_eq_invalidSeedLength_iff {length : ℕ} :
    ofSeed S text = .error (.invalidSeedLength length) ↔
      SeedText.decode text = .error (.invalidSeedLength length) := by
  cases hread : SeedText.decode text with
  | error e => rw [ofSeed_of_decode_error hread, Except.error.injEq, Except.error.injEq]
  | ok seed =>
    obtain ⟨role, bytes⟩ := seed
    obtain ⟨material, rfl⟩ := SeedText.exists_material_of_decode hread
    -- None of the three outcomes of a seed that is read is a refusal for the length.
    rw [ofSeed_of_decode hread]
    split_ifs <;> simp

/-- A pair is made of a text exactly if it is read as a seed that embeds a role which signs, and as
a secret with its public half behind it; the pair is full, with that role and secret. A text that is
not read as a seed is refused as such. Of those that are read, a seed for encryption is refused for
its role and one whose public half is another for what it holds; there is no other role, and the
material always has its full length, so that nothing is refused for its length here. What is
accepted has 109 characters, and neither a part of it from the front nor a continuation of it is
accepted. -/
theorem ofSeed_accepts_consistent_seeds (S : Scheme) (text : String) :
    (∀ (role : Role) (secret : Secret), ofSeed S text = .ok (full role secret) ↔
      role.isSigning = true ∧
        SeedText.decode text = .ok (role, secret.bytes ++ (S.publicOf secret).bytes)) ∧
    (∀ pair, ofSeed S text = .ok pair → pair.canSign = true) ∧
    (∀ e, SeedText.decode text = .error e → ofSeed S text = .error e) ∧
    (∀ (role : Role) (bytes : Bytes), SeedText.decode text = .ok (role, bytes) →
      (role.isSigning = true ∨ role = .curve) ∧
      ∃ material : Material,
        Octets.ofBytes? (secretLength + verifyingLength) bytes = some material ∧
        (role = .curve → ofSeed S text = .error .invalidPrefixByte) ∧
        (role.isSigning = true → material.last ≠ S.publicOf material.first →
          ofSeed S text = .error .invalidSeed)) ∧
    (∀ length, ofSeed S text = .error (.invalidSeedLength length) ↔
      SeedText.decode text = .error (.invalidSeedLength length)) ∧
    (∀ pair, ofSeed S text = .ok pair → text.length = 109 ∧
      ∀ other : String, other ≠ text →
        (other.toList <+: text.toList ∨ text.toList <+: other.toList) →
          ∀ made, ofSeed S other ≠ .ok made) := by
  refine ⟨fun role secret ↦ ?_, fun pair h ↦ ?_, fun _ ↦ ofSeed_of_decode_error,
    fun role bytes h ↦ ?_, fun _ ↦ ofSeed_eq_invalidSeedLength_iff,
    fun pair h ↦ ⟨length_of_ofSeed h, fun _ ↦ ofSeed_ne_ok_of_isPrefix h⟩⟩
  · rw [ofSeed_eq_ok_iff]
    constructor
    · rintro ⟨_, _, hsigning, hread, hpair⟩
      obtain ⟨rfl, rfl⟩ := full.inj hpair
      exact ⟨hsigning, hread⟩
    · rintro ⟨hsigning, hread⟩
      exact ⟨role, secret, hsigning, hread, rfl⟩
  · obtain ⟨role, secret, -, -, rfl⟩ := ofSeed_eq_ok_iff.mp h
    rfl
  · obtain ⟨material, rfl⟩ := SeedText.exists_material_of_decode h
    have hpublic := (SeedText.decode_eq_ok_iff.mp h).1
    refine ⟨Role.isPublic_iff.mp hpublic, material, Octets.ofBytes?_bytes material, ?_, ?_⟩
    · rintro rfl
      exact ofSeed_of_decode h
    · intro hsigning hhalf
      rw [ofSeed_of_decode h, if_pos hsigning, if_neg hhalf]

/-- The published seed makes the pair of its secret, and with a character more it makes none. The
same material for encryption is refused for its role, the same secret before another public half for
what it holds, and the empty text for its encoding. -/
theorem ofSeed_accepts_consistent_seeds_published :
    ofSeed SeedText.publishedScheme SeedText.publishedUserSeed =
      .ok (full .user ⟨SeedText.publishedUserSecret, rfl⟩) ∧
    SeedText.publishedUserSeed.length = 109 ∧
    (∀ made, ofSeed SeedText.publishedScheme (SeedText.publishedUserSeed ++ "A") ≠ .ok made) ∧
    (∃ text, SeedText.encode Role.curve.byte SeedText.publishedUserMaterial = .ok text ∧
      ofSeed SeedText.publishedScheme text = .error .invalidPrefixByte) ∧
    (∃ text, SeedText.encode Role.user.byte
        (SeedText.publishedUserSecret ++ List.replicate 32 0) = .ok text ∧
      ofSeed SeedText.publishedScheme text = .error .invalidSeed) ∧
    SeedText.decode "" = .error .invalidEncoding ∧
    ofSeed SeedText.publishedScheme "" = .error .invalidEncoding := by
  have hread := SeedText.decode_of_encode SeedText.encode_publishedUserMaterial
  obtain ⟨haccepts, -, -, -, -, hlong⟩ :=
    ofSeed_accepts_consistent_seeds SeedText.publishedScheme SeedText.publishedUserSeed
  have hpair := (haccepts .user ⟨SeedText.publishedUserSecret, rfl⟩).mpr ⟨rfl, hread⟩
  obtain ⟨hlength, hcut⟩ := hlong _ hpair
  refine ⟨hpair, hlength, ?_, ?_, ?_, by decide, ?_⟩
  · refine hcut _ ?_ (Or.inr ?_)
    · intro h
      have := congrArg String.length h
      rw [String.length_append] at this
      exact absurd this (by decide +kernel)
    · rw [String.toList_append]
      exact List.prefix_append _ _
  · have hwritten := SeedText.encode_eq_ok_iff.mpr
      ⟨.curve, rfl, rfl, (rfl : SeedText.publishedUserMaterial.length = 64), rfl⟩
    obtain ⟨-, -, -, hrefused, -⟩ := ofSeed_accepts_consistent_seeds SeedText.publishedScheme _
    obtain ⟨-, _, -, hcurve, -⟩ := hrefused _ _ (SeedText.decode_of_encode hwritten)
    exact ⟨_, hwritten, hcurve rfl⟩
  · have hwritten := SeedText.encode_eq_ok_iff.mpr ⟨.user, rfl, rfl,
      (rfl : (SeedText.publishedUserSecret ++ List.replicate 32 0).length = 64), rfl⟩
    obtain ⟨-, -, -, hrefused, -⟩ := ofSeed_accepts_consistent_seeds SeedText.publishedScheme _
    obtain ⟨-, material, hmaterial, -, hhalf⟩ :=
      hrefused _ _ (SeedText.decode_of_encode hwritten)
    refine ⟨_, hwritten, hhalf rfl ?_⟩
    intro h
    have hbytes := congrArg Octets.bytes h
    change material.bytes.drop 32 = KeyText.publishedUserKey at hbytes
    rw [← Octets.ofBytes?_eq_some_iff.mp hmaterial] at hbytes
    exact absurd hbytes (by decide)
  · exact (ofSeed_accepts_consistent_seeds _ _).2.2.1 _ (by decide)

end KeyPair

end RoleKey
