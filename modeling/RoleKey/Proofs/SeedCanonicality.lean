import RoleKey.KeyPair
import RoleKey.Proofs.SeedTextInverse

/-!
How many texts a seed has.

Reading a seed masks the low three bits of the header's second byte, which writing leaves clear. So
for each role and material exactly eight texts are read as that role and material, one for each
value of those bits (`decode_eq_ok_iff_spareText`, `spareText_injective`), and the one with the bits
clear is the one that is written. A pair that is made from a seed writes this one whatever text it
was made from (`seed_of_ofSeed`). `canonical_iff_spare_bits_clear` puts this together.
-/

set_option autoImplicit false
set_option relaxedAutoImplicit false

namespace RoleKey

namespace SeedText

/-! ### The spare bits of the header -/

/-- The second byte of the header with these three bits behind the embedded role. -/
def spareLow (role : Role) (spare : Fin 8) : UInt8 := headerLow role + UInt8.ofNat spare.val

/-- The text of seed material with these three bits behind the embedded role. -/
def spareText (role : Role) (material : Bytes) (spare : Fin 8) : String :=
  Envelope.write (headerHigh role :: spareLow role spare :: material)

theorem toNat_spareLow (role : Role) (spare : Fin 8) :
    (spareLow role spare).toNat = role.byte.toNat % 32 * 8 + spare.val := by
  have hspare := spare.isLt
  rw [spareLow, UInt8.toNat_add, toNat_headerLow, UInt8.toNat_ofNat']
  omega

theorem spareLow_zero (role : Role) : spareLow role 0 = headerLow role := by
  apply UInt8.toNat_inj.mp
  rw [toNat_spareLow, toNat_headerLow]
  rfl

/-- A byte is the second one of a role's header exactly if it has three bits behind the role. -/
theorem and_tagMask_eq_headerLow_iff {low : UInt8} {role : Role} :
    low &&& tagMask = headerLow role ↔ ∃ spare, spareLow role spare = low := by
  rw [← UInt8.toNat_inj, toNat_and_tagMask, toNat_headerLow]
  constructor
  · intro h
    refine ⟨⟨low.toNat % 8, Nat.mod_lt _ (by decide)⟩, ?_⟩
    apply UInt8.toNat_inj.mp
    rw [toNat_spareLow]
    dsimp only
    omega
  · rintro ⟨spare, rfl⟩
    have hspare := spare.isLt
    rw [toNat_spareLow]
    omega

theorem spareLow_injective (role : Role) : Function.Injective (spareLow role) := by
  intro spare other h
  have hnat := congrArg UInt8.toNat h
  rw [toNat_spareLow, toNat_spareLow] at hnat
  exact Fin.ext (Nat.add_left_cancel hnat)

/-- The low three bits of the second byte are the spare ones. -/
theorem spareLow_and_seven_eq_zero_iff {role : Role} {spare : Fin 8} :
    spareLow role spare &&& 0x07 = 0 ↔ spare = 0 := by
  have hspare := spare.isLt
  have hbits : (spareLow role spare &&& 0x07).toNat = spare.val := by
    rw [toNat_and_seven, toNat_spareLow]
    omega
  rw [← UInt8.toNat_inj, hbits, ← Fin.val_inj]
  rfl

/-! ### The texts of a seed -/

theorem spareText_injective (role : Role) (material : Bytes) :
    Function.Injective (spareText role material) := by
  intro spare other h
  have hlow := (List.cons.inj (List.cons.inj (Envelope.write_injective h)).2).1
  exact spareLow_injective role hlow

/-- The texts that are read as given material of a role are those with some spare bits. -/
theorem decode_eq_ok_iff_spareText {text : String} {role : Role} {material : Bytes} :
    decode text = .ok (role, material) ↔ role.isPublic = true ∧ material.length = 64 ∧
      ∃ spare, spareText role material spare = text := by
  rw [decode_eq_ok_iff]
  refine and_congr_right fun _ ↦ and_congr_right fun _ ↦ ?_
  simp only [and_tagMask_eq_headerLow_iff]
  constructor
  · rintro ⟨_, ⟨spare, rfl⟩, htext⟩
    exact ⟨spare, htext⟩
  · rintro ⟨spare, htext⟩
    exact ⟨_, ⟨spare, rfl⟩, htext⟩

theorem encode_eq_spareText {role : Role} {material : Bytes} (hpublic : role.isPublic = true)
    (hlength : material.length = 64) :
    encode role.byte material = .ok (spareText role material 0) := by
  rw [encode_eq, if_pos hpublic, if_pos hlength, spareText, spareLow_zero]

/-- A text that is read as a seed is the one that is written exactly if its spare bits are clear.
As key material of the seed role it shows them in the first byte. -/
theorem encode_eq_ok_iff_of_decode {text : String} {role : Role} {material : Bytes}
    (h : decode text = .ok (role, material)) :
    ∃ low, KeyText.decode Role.seed.byte text = .ok (low :: material) ∧
      (encode role.byte material = .ok text ↔ low &&& 0x07 = 0) := by
  obtain ⟨hpublic, hlength, spare, rfl⟩ := decode_eq_ok_iff_spareText.mp h
  refine ⟨spareLow role spare, ?_, ?_⟩
  · rw [spareText, keyText_decode_write_header, if_pos rfl]
  · rw [encode_eq_spareText hpublic hlength, Except.ok.injEq, spareLow_and_seven_eq_zero_iff]
    exact (spareText_injective role material).eq_iff.trans eq_comm

end SeedText

/-! ### Pairs from seeds -/

namespace KeyPair

/-- A pair is made from material exactly if that is its secret with the public half behind it. -/
theorem ofMaterial_eq_ok_iff {S : Scheme} {role : Role} {material : Material} {pair : KeyPair} :
    ofMaterial S role material = .ok pair ↔
      ∃ secret, materialOf S secret = material ∧ full role secret = pair := by
  rw [ofMaterial]
  constructor
  · intro h
    split_ifs at h with hpublic
    refine ⟨material.first, ?_, Except.ok.inj h⟩
    rw [materialOf, ← hpublic, Octets.append_first_last]
  · rintro ⟨secret, rfl, rfl⟩
    rw [materialOf, Octets.first_append, Octets.last_append, if_pos rfl]

/-- A pair is made from the text of a seed exactly if the embedded role signs and the material is a
secret with its public half behind it. -/
theorem ofSeed_eq_ok_iff {S : Scheme} {text : String} {pair : KeyPair} :
    ofSeed S text = .ok pair ↔ ∃ (role : Role) (secret : Secret), role.isSigning = true ∧
      SeedText.decode text = .ok (role, (materialOf S secret).bytes) ∧
        full role secret = pair := by
  rw [ofSeed]
  constructor
  · intro h
    cases hread : SeedText.decode text with
    | error e => simp [hread, bind, Except.bind] at h
    | ok seed =>
      obtain ⟨role, bytes⟩ := seed
      simp only [hread, bind, Except.bind] at h
      by_cases hsigning : role.isSigning = true
      · cases hmaterial : Octets.ofBytes? (secretLength + verifyingLength) bytes with
        | none => simp [hsigning, hmaterial] at h
        | some material =>
          simp only [hsigning, hmaterial, if_true] at h
          obtain ⟨secret, rfl, hpair⟩ := ofMaterial_eq_ok_iff.mp h
          refine ⟨role, secret, hsigning, ?_, hpair⟩
          rw [Octets.ofBytes?_eq_some_iff.mp hmaterial]
      · simp [hsigning] at h
  · rintro ⟨role, secret, hsigning, hread, rfl⟩
    simp only [hread, bind, Except.bind, hsigning, if_true, Octets.ofBytes?_bytes]
    exact ofMaterial_eq_ok_iff.mpr ⟨secret, rfl, rfl⟩

/-- A pair that is made from a seed writes the role and the material of that seed. -/
theorem seed_of_ofSeed {S : Scheme} {text : String} {pair : KeyPair}
    (h : ofSeed S text = .ok pair) :
    ∃ role material, SeedText.decode text = .ok (role, material) ∧
      pair.seed S = SeedText.encode role.byte material := by
  obtain ⟨role, secret, -, hread, rfl⟩ := ofSeed_eq_ok_iff.mp h
  exact ⟨role, _, hread, rfl⟩

end KeyPair

namespace SeedText

/-! ### A seed with a spare bit set -/

/-- The text of the published user seed with its lowest spare bit set. -/
def markedUserSeed : String :=
  "SUA4LK2ZNL35WSMW37E7UD4VZ7ELPKW7DHC3BWBSD2GCZ7IUQQXZIOUV2363544C4Q2LOBQFUAETBQLE4HZLQ3J4A6IT" ++
  "GBKLSDVFKOWUML3AA"

theorem spareText_publishedUserMaterial :
    spareText .user publishedUserMaterial 1 = markedUserSeed := by
  have hmiddle : Checksum.feedBits 0
      (byteBits (headerHigh .user :: spareLow .user 1 :: publishedUserSecret)) = 33005 := by
    decide +kernel
  have hsum : Checksum.feedBits 33005 (byteBits KeyText.publishedUserKey) = 246 := by
    decide +kernel
  rw [spareText, publishedUserMaterial, ← List.cons_append, ← List.cons_append,
    Envelope.write_append hmiddle hsum]
  decide +kernel

theorem decode_markedUserSeed : decode markedUserSeed = .ok (.user, publishedUserMaterial) :=
  decode_eq_ok_iff_spareText.mpr ⟨rfl, rfl, 1, spareText_publishedUserMaterial⟩

theorem markedUserSeed_ne : publishedUserSeed ≠ markedUserSeed := by decide

/-- A scheme in which the published key is that of every secret. -/
def publishedScheme : Scheme where
  VerifyingKey := PublicOctets
  derive _ := ⟨KeyText.publishedUserKey, rfl⟩
  write := id
  read := some
  sign _ _ := ⟨List.replicate signatureLength 0, List.length_replicate⟩
  accepts _ _ _ := false

/-! ### Canonical texts -/

/-- Given material of 64 bytes and a public role, the texts that are read as both are eight, one for
each value of the spare bits, and the one with the bits clear is written. A text that is read as a
seed shows its bits when it is read as key material of the seed role, and it is the one that is
written exactly if they are clear. A pair that is made from it writes the one with the bits clear,
so that it gives back the text exactly if its bits are clear. -/
theorem canonical_iff_spare_bits_clear :
    (∀ (role : Role) (material : Bytes), role.isPublic = true → material.length = 64 →
      Function.Injective (spareText role material) ∧
      (∀ text, decode text = .ok (role, material) ↔
        ∃ spare, spareText role material spare = text) ∧
      encode role.byte material = .ok (spareText role material 0)) ∧
    (∀ (text : String) (role : Role) (material : Bytes), decode text = .ok (role, material) →
      ∃ low, KeyText.decode Role.seed.byte text = .ok (low :: material) ∧
        (encode role.byte material = .ok text ↔ low &&& 0x07 = 0)) ∧
    (∀ (S : Scheme) (text : String) (pair : KeyPair), KeyPair.ofSeed S text = .ok pair →
      ∃ role material low, decode text = .ok (role, material) ∧
        KeyText.decode Role.seed.byte text = .ok (low :: material) ∧
        pair.seed S = .ok (spareText role material 0) ∧
        (pair.seed S = .ok text ↔ low &&& 0x07 = 0)) := by
  refine ⟨?_, fun _ _ _ h ↦ encode_eq_ok_iff_of_decode h, ?_⟩
  · intro role material hpublic hlength
    refine ⟨spareText_injective role material, fun text ↦ ?_, encode_eq_spareText hpublic hlength⟩
    rw [decode_eq_ok_iff_spareText]
    exact ⟨fun h ↦ h.2.2, fun h ↦ ⟨hpublic, hlength, h⟩⟩
  · intro S text pair hpair
    obtain ⟨role, material, hread, hseed⟩ := KeyPair.seed_of_ofSeed hpair
    obtain ⟨low, hkey, hcanonical⟩ := encode_eq_ok_iff_of_decode hread
    obtain ⟨hpublic, hlength, -⟩ := decode_eq_ok_iff_spareText.mp hread
    refine ⟨role, material, low, hread, hkey, ?_, ?_⟩
    · rw [hseed, encode_eq_spareText hpublic hlength]
    · rw [hseed, hcanonical]

/-- As key material the text with a spare bit set shows that bit, and the pair that is made from it
writes another text. -/
theorem canonical_iff_spare_bits_clear_marked :
    Role.user.isPublic = true ∧ publishedUserMaterial.length = 64 ∧
    decode markedUserSeed = .ok (.user, publishedUserMaterial) ∧
    (∃ low, KeyText.decode Role.seed.byte markedUserSeed = .ok (low :: publishedUserMaterial) ∧
      low &&& 0x07 ≠ 0) ∧
    ∃ pair, KeyPair.ofSeed publishedScheme markedUserSeed = .ok pair ∧
      pair.seed publishedScheme ≠ .ok markedUserSeed := by
  obtain ⟨htexts, hread, hpair⟩ := canonical_iff_spare_bits_clear
  obtain ⟨hinjective, -, hwritten⟩ := htexts .user publishedUserMaterial rfl rfl
  have hother : encode Role.user.byte publishedUserMaterial ≠ .ok markedUserSeed := by
    rw [hwritten, ← spareText_publishedUserMaterial, ne_eq, Except.ok.injEq, hinjective.eq_iff]
    decide
  have hmade : KeyPair.ofSeed publishedScheme markedUserSeed =
      .ok (.full .user ⟨publishedUserSecret, rfl⟩) :=
    KeyPair.ofSeed_eq_ok_iff.mpr
      ⟨.user, ⟨publishedUserSecret, rfl⟩, rfl, decode_markedUserSeed, rfl⟩
  obtain ⟨low, hkey, hclear⟩ := hread _ _ _ decode_markedUserSeed
  obtain ⟨_, _, low', -, hkey', -, hclear'⟩ := hpair _ _ _ hmade
  have hsame : low = low' := (List.cons.inj (Except.ok.inj (hkey.symm.trans hkey'))).1
  refine ⟨rfl, rfl, decode_markedUserSeed, ⟨low, hkey, fun h ↦ hother (hclear.mpr h)⟩, _, hmade, ?_⟩
  rw [ne_eq, hclear', ← hsame, ← hclear]
  exact hother

/-- Reading is not canonical: the text with a spare bit set is read as the same role and material as
the published one, and it is not the one that is written for them. -/
theorem decode_not_canonical :
    decode markedUserSeed = .ok (.user, publishedUserMaterial) ∧
    decode publishedUserSeed = .ok (.user, publishedUserMaterial) ∧
    publishedUserSeed ≠ markedUserSeed ∧
    encode Role.user.byte publishedUserMaterial ≠ .ok markedUserSeed := by
  have hwritten : encode Role.user.byte publishedUserMaterial = .ok publishedUserSeed :=
    encode_eq_ok_iff.mpr ⟨.user, rfl, rfl, rfl, write_publishedUserMaterial⟩
  refine ⟨decode_markedUserSeed, decode_of_encode hwritten, markedUserSeed_ne, ?_⟩
  rw [hwritten, ne_eq, Except.ok.injEq]
  exact markedUserSeed_ne

end SeedText

end RoleKey
