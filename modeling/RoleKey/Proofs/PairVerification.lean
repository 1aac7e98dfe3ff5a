import RoleKey.Proofs.SignThenVerify

/-!
A pair and its public half verify alike.

A pair accepts what its verifying key accepts, which are signatures of 64 bytes, and nothing else
(`verify_eq_ok_iff`); whatever it does not accept it refuses in the same words
(`eq_verificationFailed_of_verify`). So the verifying key is all that counts. A full pair holds that
key; the pair that is made of the text of its public key has the 32 bytes that came back from the
text, and reads the key from them when it verifies (`verify_publicOnly`).
`public_half_verifies_alike` says that the two agree over all data and all bytes given for a
signature, and that both accept what the full pair signs.
-/

set_option autoImplicit false
set_option relaxedAutoImplicit false

namespace RoleKey

/-! ### What a pair accepts -/

/-- Bytes are a signature if there are 64 of them and the key accepts them as such. -/
theorem Scheme.verifies_iff {S : Scheme} {key : S.VerifyingKey} {data bytes : Bytes} :
    S.verifies key data bytes = true ↔
      ∃ signature : Octets signatureLength,
        bytes = signature.bytes ∧ S.accepts key data signature = true := by
  rw [Scheme.verifies]
  constructor
  · intro h
    cases hsignature : Octets.ofBytes? signatureLength bytes with
    | none => simp [hsignature] at h
    | some signature =>
      rw [hsignature] at h
      exact ⟨signature, Octets.ofBytes?_eq_some_iff.mp hsignature, h⟩
  · rintro ⟨signature, rfl, h⟩
    rw [Octets.ofBytes?_bytes]
    exact h

namespace KeyPair

variable {S : Scheme} {pair : KeyPair} {data bytes : Bytes}

/-- A pair accepts what its verifying key accepts, if it has one, and that has 64 bytes. -/
theorem verify_eq_ok_iff :
    pair.verify S data bytes = .ok () ↔
      ∃ (key : S.VerifyingKey) (signature : Octets signatureLength),
        pair.verifyingKey? S = some key ∧ bytes = signature.bytes ∧
          S.accepts key data signature = true := by
  rw [verify]
  cases pair.verifyingKey? S with
  | none => simp
  | some key =>
    simp only [Option.some.injEq, exists_and_left, exists_eq_left', ← Scheme.verifies_iff]
    split_ifs with haccepts <;> simp [haccepts]

/-- Whatever is not accepted is refused in the same words. -/
theorem eq_verificationFailed_of_verify {e : KeyError} (h : pair.verify S data bytes = .error e) :
    e = .verificationFailed := by
  rw [verify] at h
  split at h
  · split_ifs at h
    exact (Except.error.inj h).symm
  · exact (Except.error.inj h).symm

/-! ### A pair and its public half -/

/-- With a sound scheme the public half of a full pair reads back as the key that the pair holds. -/
theorem verify_publicOnly (hS : S.Lawful) (role : Role) (secret : Secret) :
    (publicOnly role (S.publicOf secret)).verify S data bytes =
      (full role secret).verify S data bytes := by
  rw [verify, verify]
  simp only [verifyingKey?, hS.read_publicOf secret]

/-- With a sound scheme, every full pair whose role signs has a text for its public key, and a pair
with the public half alone is made of that text under the role. Over all data and all bytes given
for a signature, however many, the two pairs come to the same, and the only refusal is that the
verification failed. Over all data the full pair gives a signature of 64 bytes that both accept. -/
theorem public_half_verifies_alike (hS : S.Lawful) (pair : KeyPair) (hfull : pair.canSign = true)
    (hsigning : pair.role.isSigning = true) :
    ∃ text half, pair.publicKey S = .ok text ∧ ofPublicKey pair.role text = .ok half ∧
      half.canSign = false ∧
      (∀ data bytes : Bytes, pair.verify S data bytes = half.verify S data bytes ∧
        ∀ e, pair.verify S data bytes = .error e → e = .verificationFailed) ∧
      ∀ data : Bytes, ∃ signature : Bytes, pair.sign S data = .ok signature ∧
        signature.length = 64 ∧ pair.verify S data signature = .ok () ∧
        half.verify S data signature = .ok () := by
  cases pair with
  | publicOnly role key => exact nomatch hfull
  | full role secret =>
    obtain ⟨text, htext, hread, -⟩ := publicKey_tells S (full role secret) hsigning
    have hhalf : ofPublicKey role text = .ok (publicOnly role (S.publicOf secret)) :=
      ofPublicKey_eq_ok_iff.mpr ⟨hsigning, S.publicOf secret, hread, rfl⟩
    refine ⟨text, _, htext, hhalf, rfl, fun data bytes ↦ ?_, fun data ↦ ?_⟩
    · exact ⟨(verify_publicOnly hS role secret).symm, fun _ ↦ eq_verificationFailed_of_verify⟩
    · have haccepts : (full role secret).verify S data (S.sign secret data).bytes = .ok () :=
        verify_sign hS rfl data
      exact ⟨_, rfl, (S.sign secret data).length_eq, haccepts,
        (verify_publicOnly hS role secret).trans haccepts⟩

/-- The published pair and the pair of its published public key both accept the signature over the
greeting, and both refuse it without its last byte. -/
theorem public_half_verifies_alike_greeting :
    Command.greetingScheme.Lawful ∧
    (full .user ⟨SeedText.publishedUserSecret, rfl⟩).canSign = true ∧
    Role.user.isSigning = true ∧
    ∃ half, ofPublicKey .user KeyText.publishedUserText = .ok half ∧
      half.verify Command.greetingScheme (Text.utf8 "Hello World")
        Command.publishedSignature.bytes = .ok () ∧
      half.verify Command.greetingScheme (Text.utf8 "Hello World")
        Command.publishedSignature.bytes.dropLast = .error .verificationFailed := by
  have hpublished : (full .user ⟨SeedText.publishedUserSecret, rfl⟩).publicKey
      Command.greetingScheme = .ok KeyText.publishedUserText :=
    (KeyText.decode_eq_ok_iff_encode (by decide)).mp KeyText.decode_publishedUserText
  obtain ⟨text, half, htext, hhalf, -, halike, hsigned⟩ :=
    public_half_verifies_alike Command.greetingScheme_lawful
      (full .user ⟨SeedText.publishedUserSecret, rfl⟩) rfl rfl
  obtain rfl := Except.ok.inj (hpublished.symm.trans htext)
  obtain ⟨signature, hsignature, -, -, haccepts⟩ := hsigned (Text.utf8 "Hello World")
  obtain rfl : Command.publishedSignature.bytes = signature := Except.ok.inj hsignature
  refine ⟨Command.greetingScheme_lawful, rfl, rfl, half, hhalf, haccepts, ?_⟩
  rw [← (halike _ _).1]
  rfl

end KeyPair

end RoleKey
