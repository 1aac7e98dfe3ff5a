import RoleKey.Proofs.PairVerification

/-!
What verifying decides.

Verifying reads three arguments: a key and a signature, each given as it is or in a file
(`Resolves`), and a file of data. A key's text tells the 32 bytes of a public key and the key that
is checked with (`TellsKey`): it is the text of a public key that signs, or a seed, which holds the
secret as well. A signature's text spells bytes in hexadecimal digits. `verify_decides` says that
verifying succeeds exactly if all of these are there and the scheme accepts; there is one thing to
print then, and otherwise there is a failure.

Each argument has a statement of its own: `fileOrLiteral_eq_ok_iff` for what a value stands for,
`exists_parseKey_iff` for the key that a text tells, whichever of the two constructors reads it,
and `Text.Hexadecimal.decode_eq_ok_iff` for the bytes that a text spells.
-/

set_option autoImplicit false
set_option relaxedAutoImplicit false

namespace RoleKey.Command

variable {S : Scheme} {files : Files}

/-! ### Values -/

/-- What a value stands for: the content of the regular file that it names, which has to be a text,
or itself if it names none, in both cases without the blanks around it. -/
def Resolves (files : Files) (value text : String) : Prop :=
  ((files value).isRegular = true ∧
      ∃ content, files.read value = .ok (Text.utf8 content) ∧ text = Text.trim content) ∨
    ((files value).isRegular = false ∧ text = Text.trim value)

theorem fileOrLiteral_eq_ok_iff {value text : String} :
    fileOrLiteral files value = .ok text ↔ Resolves files value text := by
  rw [Resolves]
  cases hfile : (files value).isRegular with
  | false =>
    rw [fileOrLiteral_of_not_isRegular hfile, Except.ok.injEq]
    simp [eq_comm]
  | true =>
    simp only [true_and, reduceCtorEq, false_and, or_false, ← Files.readText_eq_ok_iff]
    constructor
    · intro h
      cases hread : files.readText value with
      | error fault =>
        rw [fileOrLiteral, if_pos hfile, hread] at h
        simp [Failure.ofFile, Except.mapError, Except.map] at h
      | ok content =>
        rw [fileOrLiteral_of_isRegular hfile hread] at h
        exact ⟨content, rfl, (Except.ok.inj h).symm⟩
    · rintro ⟨content, hread, rfl⟩
      exact fileOrLiteral_of_isRegular hfile hread

/-! ### Keys -/

/-- A text tells the 32 bytes of a public key, and the key that signatures are checked with. -/
inductive TellsKey (S : Scheme) : String → PublicOctets → S.VerifyingKey → Prop
  /-- The text of a public key of a role that signs, whose bytes read back as a key. -/
  | publicKey {role : Role} {text : String} {octets : PublicOctets} {key : S.VerifyingKey}
      (hsigning : role.isSigning = true) (htext : KeyText.encode role.byte octets.bytes = .ok text)
      (hread : S.read octets = some key) : TellsKey S text octets key
  /-- The text of a seed that makes a pair, with the key of its secret. -/
  | seed {role : Role} {secret : Secret} {text : String}
      (hpair : KeyPair.ofSeed S text = .ok (.full role secret)) :
      TellsKey S text (S.publicOf secret) (S.derive secret)

/-- The key that a text tells is the one that its bytes read back as, if the public half of a secret
reads back as the key of the secret. -/
theorem TellsKey.read_eq
    (hread : ∀ secret : Secret, S.read (S.publicOf secret) = some (S.derive secret))
    {text : String} {octets : PublicOctets} {key : S.VerifyingKey}
    (h : TellsKey S text octets key) : S.read octets = some key := by
  cases h with
  | publicKey _ _ hkey => exact hkey
  | seed _ => exact hread _

/-- A pair is read from a text, and has a key to check signatures with, exactly if the text tells
that key. -/
theorem exists_parseKey_iff {text : String} {key : S.VerifyingKey} :
    (∃ pair, (parseKey S text).result = .ok pair ∧ pair.verifyingKey? S = some key) ↔
      ∃ octets, TellsKey S text octets key := by
  constructor
  · rintro ⟨pair, hpair, hkey⟩
    rw [parseKey_result_eq_ok_iff] at hpair
    -- What claims to be a seed goes to the one constructor, and everything else to the other.
    split_ifs at hpair with hseed
    · obtain ⟨role, secret, -, -, rfl⟩ := KeyPair.ofSeed_eq_ok_iff.mp hpair
      obtain rfl : S.derive secret = key := Option.some.inj hkey
      exact ⟨_, .seed hpair⟩
    · obtain ⟨role, hrole⟩ := KeyPair.ofAnyPublicKey_eq_ok_iff.mp hpair
      obtain ⟨hsigning, octets, -, rfl⟩ := KeyPair.ofPublicKey_eq_ok_iff.mp hrole
      exact ⟨octets, .publicKey hsigning (KeyPair.publicKey_of_ofPublicKey S hrole) hkey⟩
  · rintro ⟨octets, h⟩
    cases h with
    | publicKey hsigning htext hread =>
      have hdecoded := (KeyText.decode_eq_ok_iff_encode
        (Role.ne_seed_of_isPublic (Role.isPublic_of_isSigning hsigning))).mpr htext
      have hpair := KeyPair.ofPublicKey_eq_ok_iff.mpr ⟨hsigning, octets, hdecoded, rfl⟩
      exact ⟨_, parseKey_publicKey (KeyPair.ofAnyPublicKey_eq_ok_iff.mpr ⟨_, hpair⟩), hread⟩
    | seed hpair => exact ⟨_, parseKey_seed hpair, rfl⟩

/-! ### The decision -/

/-- What has to be there for verifying to succeed: texts for the key and for the signature, bytes of
data, a key that the one text tells, and a signature that the other spells and the scheme accepts by
that key. -/
def Authentic (S : Scheme) (files : Files) (key signature data : String) : Prop :=
  ∃ (keyText signatureText : String) (content : Bytes) (octets : PublicOctets)
    (verifying : S.VerifyingKey) (signed : Octets signatureLength),
    Resolves files key keyText ∧ Resolves files signature signatureText ∧
      files.read data = .ok content ∧ TellsKey S keyText octets verifying ∧
      signatureText.length = 128 ∧
      (∀ c ∈ signatureText.toList, c ∈ "0123456789abcdefABCDEF".toList) ∧
      Text.Hexadecimal.Spells signatureText signed.bytes ∧
      S.accepts verifying content signed = true

theorem verify_eq_ok_iff_authentic {key signature data printed : String} :
    (verify S files key signature data).result = .ok printed ↔
      printed = "Verified OK" ∧ Authentic S files key signature data := by
  rw [verify_result_eq_ok_iff]
  constructor
  · rintro ⟨keyText, pair, signatureText, bytes, content, hkey, hpair, hsignature, hbytes, hcontent,
      hverified, rfl⟩
    obtain ⟨verifying, signed, hverifying, rfl, haccepts⟩ := KeyPair.verify_eq_ok_iff.mp hverified
    obtain ⟨octets, htells⟩ := exists_parseKey_iff.mp ⟨pair, hpair, hverifying⟩
    have hspells := Text.Hexadecimal.decode_eq_ok_iff.mp hbytes
    obtain ⟨hlength, hdigits⟩ := hspells.digits_of
    rw [signed.length_eq] at hlength
    exact ⟨rfl, keyText, signatureText, content, octets, verifying, signed,
      fileOrLiteral_eq_ok_iff.mp hkey, fileOrLiteral_eq_ok_iff.mp hsignature, hcontent, htells,
      hlength, hdigits, hspells, haccepts⟩
  · rintro ⟨rfl, keyText, signatureText, content, octets, verifying, signed, hkey, hsignature,
      hcontent, htells, -, -, hspells, haccepts⟩
    obtain ⟨pair, hpair, hverifying⟩ := exists_parseKey_iff.mpr ⟨octets, htells⟩
    exact ⟨keyText, pair, signatureText, signed.bytes, content, fileOrLiteral_eq_ok_iff.mpr hkey,
      hpair, fileOrLiteral_eq_ok_iff.mpr hsignature, Text.Hexadecimal.decode_eq_ok_iff.mpr hspells,
      hcontent, KeyPair.verify_eq_ok_iff.mpr ⟨verifying, signed, hverifying, rfl, haccepts⟩, rfl⟩

/-- Verifying decides whether key, signature and data are authentic, whatever the scheme and the
state of the files. If they are, it prints that they are verified and nothing else; if they are not,
it fails, and it fails only then. The signature is 128 hexadecimal digits of either case, which
always spell one byte string of 64 and no other. If the public half of a secret reads back as the
key of the secret, then the key that is checked with is in every case the one that the 32 bytes of
the public key read back as. -/
theorem verify_decides (S : Scheme) (files : Files) (key signature data : String) :
    (∀ printed, (verify S files key signature data).result = .ok printed ↔
      printed = "Verified OK" ∧ Authentic S files key signature data) ∧
    ((∃ failure, (verify S files key signature data).result = .error failure) ↔
      ¬ Authentic S files key signature data) ∧
    (∀ text : String, text.length = 128 →
      (∀ c ∈ text.toList, c ∈ "0123456789abcdefABCDEF".toList) →
        ∃! signed : Octets signatureLength, Text.Hexadecimal.Spells text signed.bytes) ∧
    ((∀ secret : Secret, S.read (S.publicOf secret) = some (S.derive secret)) →
      ∀ (text : String) (octets : PublicOctets) (verifying : S.VerifyingKey),
        TellsKey S text octets verifying → S.read octets = some verifying) := by
  refine ⟨fun printed ↦ verify_eq_ok_iff_authentic, ?_, fun text hlength hdigits ↦ ?_,
    fun hread _ _ _ ↦ TellsKey.read_eq hread⟩
  · constructor
    · rintro ⟨failure, hfailure⟩ hauthentic
      have hok := verify_eq_ok_iff_authentic.mpr ⟨rfl, hauthentic⟩
      exact nomatch hfailure.symm.trans hok
    · intro hforged
      cases hresult : (verify S files key signature data).result with
      | error failure => exact ⟨failure, rfl⟩
      | ok printed => exact absurd (verify_eq_ok_iff_authentic.mp hresult).2 hforged
  · have hcount : text.length = 2 * signatureLength := hlength
    obtain ⟨bytes, hbytes, hspells⟩ :=
      Text.Hexadecimal.exists_spells_iff.mpr ⟨hcount, hdigits⟩
    refine ⟨⟨bytes, hbytes⟩, hspells, fun other hother ↦ Octets.ext ?_⟩
    exact Text.Hexadecimal.Spells.unique hother hspells

/-- The signature of the published pair over the greeting, in upper case. -/
def shoutedSignature : String :=
  "8A3956C12DBFF03BA108A4F24113ACB34B8122AF5A895EB88271C9EB6B54B0FD" ++
    "7612A473357BC0AD1D5C43EE61C55508A2A487F6525667F2ECA7E8A7322BE609"

theorem spells_shoutedSignature :
    Text.Hexadecimal.Spells shoutedSignature publishedSignature.bytes := by
  rw [Text.Hexadecimal.spells_iff]
  decide +kernel

/-- With the seed in a file and the signature in upper case the greeting is verified. With the text
of the public key and the first bytes of that signature verifying fails. -/
theorem verify_decides_greeting :
    (verify greetingScheme greetingDirectory.files "user.nk" shoutedSignature "greeting").result =
      .ok "Verified OK" ∧
    (∃ failure, (verify greetingScheme greetingDirectory.files KeyText.publishedUserText "8A3956C1"
      "greeting").result = .error failure) ∧
    shoutedSignature.length = 128 ∧
    (∀ c ∈ shoutedSignature.toList, c ∈ "0123456789abcdefABCDEF".toList) ∧
    (∃! signed : Octets signatureLength,
      Text.Hexadecimal.Spells shoutedSignature signed.bytes) ∧
    (∀ secret : Secret, greetingScheme.read (greetingScheme.publicOf secret) =
      some (greetingScheme.derive secret)) ∧
    greetingScheme.read ⟨KeyText.publishedUserKey, rfl⟩ =
      some (greetingScheme.derive ⟨SeedText.publishedUserSecret, rfl⟩) := by
  have hdecoded := SeedText.decode_of_encode SeedText.encode_publishedUserMaterial
  have hpair : KeyPair.ofSeed greetingScheme SeedText.publishedUserSeed =
      .ok (.full .user ⟨SeedText.publishedUserSecret, rfl⟩) :=
    KeyPair.ofSeed_eq_ok_iff.mpr ⟨.user, ⟨SeedText.publishedUserSecret, rfl⟩, rfl, hdecoded, rfl⟩
  have hseed : Resolves greetingDirectory.files "user.nk" SeedText.publishedUserSeed :=
    Or.inl ⟨rfl, _, rfl, (Text.trim_surrounded (by decide)
      (SeedText.isSolid_of_decode hdecoded).hasBareEnds (by decide)).symm⟩
  have hshouted : Resolves greetingDirectory.files shoutedSignature shoutedSignature :=
    Or.inr ⟨by decide +kernel, by decide +kernel⟩
  obtain ⟨hlength, hdigits⟩ := spells_shoutedSignature.digits_of
  have hauthentic : Authentic greetingScheme greetingDirectory.files "user.nk" shoutedSignature
      "greeting" :=
    ⟨_, _, Text.utf8 "Hello World", _, _, publishedSignature, hseed, hshouted, rfl, .seed hpair,
      hlength, hdigits, spells_shoutedSignature,
      greetingScheme_lawful.accepts_sign ⟨SeedText.publishedUserSecret, rfl⟩ _⟩
  obtain ⟨hverified, -, hspelled, hkeys⟩ :=
    verify_decides greetingScheme greetingDirectory.files "user.nk" shoutedSignature "greeting"
  obtain ⟨-, hfails, -, -⟩ := verify_decides greetingScheme greetingDirectory.files
    KeyText.publishedUserText "8A3956C1" "greeting"
  refine ⟨(hverified _).mpr ⟨rfl, hauthentic⟩, hfails.mpr ?_, hlength, hdigits,
    hspelled _ hlength hdigits, greetingScheme_lawful.read_publicOf,
    hkeys greetingScheme_lawful.read_publicOf _ _ _ (.seed hpair)⟩
  rintro ⟨_, text, _, _, _, _, -, htext, -, -, hcount, -⟩
  rcases htext with ⟨hfile, -⟩ | ⟨-, rfl⟩
  · exact absurd hfile (by decide +kernel)
  · exact absurd hcount (by decide +kernel)

end RoleKey.Command
