import RoleKey.Proofs.InspectionVerdict

/-!
What is printed of a new pair.

Where the role signs and the source delivers, a pair is generated of the secret drawn
(`generate_of_draw`). Its two texts have no blank in them, so that they can be told apart as the two
lines of the output (`split_printGenerated`) and as members of the record that JSON gives back.
`generated_output_fits_together` says that either output has the same seed and public key, and that
the other commands take them for what they are.
-/

set_option autoImplicit false
set_option relaxedAutoImplicit false

namespace RoleKey

/-! ### Lines -/

namespace Text

theorem split_of_not_mem {separator : Char} {s : List Char} (h : separator ∉ s) :
    split separator s = [s] := by
  induction s with
  | nil => rfl
  | cons c s ih =>
    rw [List.mem_cons, not_or] at h
    rw [split, if_neg (Ne.symm h.1), ih h.2, consFirst]

/-- The first piece ends at the first separator. -/
theorem split_append_cons {separator : Char} {s : List Char} (h : separator ∉ s)
    (rest : List Char) :
    split separator (s ++ separator :: rest) = s :: split separator rest := by
  induction s with
  | nil => rw [List.nil_append, split, if_pos rfl]
  | cons c s ih =>
    rw [List.mem_cons, not_or] at h
    rw [List.cons_append, split, if_neg (Ne.symm h.1), ih h.2, consFirst]

theorem IsSolid.newline_not_mem {s : String} (h : IsSolid s) : '\n' ∉ s.toList := by
  intro hmem
  exact absurd (h '\n' hmem) (by decide)

end Text

/-! ### Drawing a secret -/

namespace RandomSource

/-- A draw takes the next bytes. -/
theorem draw_append {n : ℕ} (drawn : Octets n) (rest : Bytes) (complaint : String) :
    draw ⟨drawn.bytes ++ rest, complaint⟩ n = (.ok drawn, ⟨rest, complaint⟩) := by
  have htake : (drawn.bytes ++ rest).take n = drawn.bytes := List.take_left' drawn.length_eq
  have hdrop : (drawn.bytes ++ rest).drop n = rest := List.drop_left' drawn.length_eq
  simp only [draw, htake, hdrop, Octets.ofBytes?_bytes]

end RandomSource

namespace Command

variable {S : Scheme} {role : Role}

/-! ### Generating -/

/-- Generating a pair of a secret that is drawn: what is printed, both events, and what the source
has left. -/
theorem generate_of_draw (hsigning : role.isSigning = true) {source rest : RandomSource}
    {secret : Secret} (hdraw : source.draw secretLength = (.ok secret, rest)) {seed key : String}
    (hseed : (KeyPair.full role secret).seed S = .ok seed)
    (hkey : (KeyPair.full role secret).publicKey S = .ok key) (json : Bool) :
    generate S role json source =
      (⟨.ok (printGenerated role seed key json), [pairGenerated role, commandGenerated role key]⟩,
        rest) := by
  have hpair : KeyPair.generate role source = (.ok (.full role secret), rest) := by
    rw [KeyPair.generate, if_pos hsigning, hdraw]
    exact congrArg (·, rest) (KeyPair.ofSecret_eq_ok_iff.mpr ⟨hsigning, rfl⟩)
  have hshown : showGenerated S role json (.full role secret) =
      ⟨.ok (printGenerated role seed key json),
        [pairGenerated role, commandGenerated role key]⟩ := by
    rw [showGenerated, hseed, hkey]
    rfl
  have hrun : (Run.of (Failure.ofKey (some .generate) (.ok (KeyPair.full role secret)))).andThen
      (showGenerated S role json) = showGenerated S role json (.full role secret) := rfl
  rw [generate, hpair]
  dsimp only
  rw [hrun, hshown]

/-- Where no pair is generated there is no event, and the failure says why. -/
theorem generate_of_error {source : RandomSource} {e : KeyError}
    (h : (KeyPair.generate role source).1 = .error e) (json : Bool) :
    (generate S role json source).1 = ⟨.error ⟨some .generate, .key e⟩, []⟩ := by
  unfold generate
  rcases hpair : KeyPair.generate role source with ⟨outcome, rest⟩
  rw [hpair] at h
  obtain rfl : outcome = .error e := h
  rfl

/-- The two lines of the output. -/
theorem split_printGenerated {seed key : String} (hseed : Text.IsSolid seed)
    (hkey : Text.IsSolid key) :
    Text.split '\n' (printGenerated role seed key false).toList = [seed.toList, key.toList] := by
  have hprinted : (printGenerated role seed key false).toList =
      seed.toList ++ '\n' :: key.toList := by
    simp [printGenerated]
  rw [hprinted, Text.split_append_cons hseed.newline_not_mem,
    Text.split_of_not_mem hkey.newline_not_mem]

/-! ### Using what was printed -/

/-- The public key of a seed file is that of the secret, whatever blanks stand around the seed. -/
theorem publicKey_of_surrounded_seed {files : Files} {inkey front back seed key : String}
    {secret : Secret} (hfront : Text.IsBlank front) (hback : Text.IsBlank back)
    (hread : files.read inkey = .ok (Text.utf8 (front ++ seed ++ back)))
    (hpair : KeyPair.ofSeed S seed = .ok (.full role secret))
    (hkey : (KeyPair.full role secret).publicKey S = .ok key) :
    (publicKey S files inkey).result = .ok key := by
  obtain ⟨_, _, -, hdecoded, -⟩ := KeyPair.ofSeed_eq_ok_iff.mp hpair
  have hne : seed ≠ "" := by
    rintro rfl
    exact absurd (SeedText.length_of_decode hdecoded) (by decide)
  have hseed : seedIn files inkey = .ok seed := seedIn_eq_ok_iff.mpr ⟨_, readText_of_read hread,
    Text.trim_surrounded hfront (SeedText.isSolid_of_decode hdecoded).hasBareEnds hback, hne⟩
  exact publicKey_result_eq_ok_iff.mpr ⟨seed, _, hseed, hpair, hkey⟩

/-- For a role that signs and any secret that the source delivers there are a seed, of 109
characters, and a public key, of 56, such that generating prints the two as its lines, and as JSON
the role, the seed and the public key. The seed makes the pair of the secret. From a file that holds
the seed, with any blanks around it, the public key is printed; and inspecting reports the seed as a
valid seed and the public key as a valid public key, both of the role. -/
theorem generated_output_fits_together (S : Scheme) {role : Role} (hsigning : role.isSigning = true)
    (secret : Secret) (rest : Bytes) (complaint : String) :
    ∃ seed key : String, seed.length = 109 ∧ key.length = 56 ∧
      (∃ printed, (generate S role false ⟨secret.bytes ++ rest, complaint⟩).1.result = .ok printed ∧
        Text.split '\n' printed.toList = [seed.toList, key.toList]) ∧
      (∃ printed, (generate S role true ⟨secret.bytes ++ rest, complaint⟩).1.result = .ok printed ∧
        Text.Record.read? printed =
          some [("role", .text role.name), ("seed", .text seed), ("public_key", .text key)]) ∧
      KeyPair.ofSeed S seed = .ok (.full role secret) ∧
      (∀ (files : Files) (inkey front back : String), Text.IsBlank front → Text.IsBlank back →
        files.read inkey = .ok (Text.utf8 (front ++ seed ++ back)) →
        (publicKey S files inkey).result = .ok key) ∧
      Reports seed (.accepted .seed (some role)) ∧
      Reports key (.accepted .publicKey (some role)) := by
  obtain ⟨seed, hseed, hreadSeed, hpair⟩ := KeyPair.seed_returns S hsigning secret
  obtain ⟨key, hkey, hreadKey, -⟩ := KeyPair.publicKey_tells S (.full role secret) hsigning
  have hdraw := RandomSource.draw_append secret rest complaint
  have hgenerated (json : Bool) :
      (generate S role json ⟨secret.bytes ++ rest, complaint⟩).1.result =
        .ok (printGenerated role seed key json) := by
    rw [generate_of_draw hsigning hdraw hseed hkey json]
  have hsolidSeed := SeedText.isSolid_of_decode hreadSeed
  have hsolidKey := KeyText.isSolid_of_decode hreadKey
  have hpublic := Role.isPublic_of_isSigning hsigning
  refine ⟨seed, key, SeedText.length_of_decode hreadSeed, ?_,
    ⟨_, hgenerated false, split_printGenerated hsolidSeed hsolidKey⟩,
    ⟨_, hgenerated true, Text.read?_pretty _⟩, hpair, ?_, ?_, ?_⟩
  · rw [KeyText.length_of_decode hreadKey, Octets.length_eq]
    rfl
  · intro files inkey front back hfront hback hread
    exact publicKey_of_surrounded_seed hfront hback hread hpair hkey
  · rw [reports_iff, Inspection.ofText, Text.trim_of_isSolid hsolidSeed, Inspection.report_seed_iff]
    exact ⟨_, hreadSeed⟩
  · rw [reports_iff, Inspection.ofText, Text.trim_of_isSolid hsolidKey,
      Inspection.report_publicKey_iff]
    exact ⟨hpublic, _, Octets.length_eq _,
      (KeyText.decode_eq_ok_iff_encode (Role.ne_seed_of_isPublic hpublic)).mp hreadKey⟩

/-- The published secret of a user, drawn from a source: the two lines are the published texts, the
public key is printed of a file with the seed between blanks, and both lines are reported as
valid. -/
theorem generated_output_fits_together_published :
    Role.user.isSigning = true ∧
    (generate SeedText.publishedScheme .user false
      ⟨SeedText.publishedUserSecret ++ [], "exhausted"⟩).1.result =
      .ok (SeedText.publishedUserSeed ++ "\n" ++ KeyText.publishedUserText) ∧
    SeedText.publishedUserSeed.length = 109 ∧ KeyText.publishedUserText.length = 56 ∧
    (publicKey SeedText.publishedScheme greetingDirectory.files "user.nk").result =
      .ok KeyText.publishedUserText ∧
    Reports SeedText.publishedUserSeed (.accepted .seed (some .user)) ∧
    Reports KeyText.publishedUserText (.accepted .publicKey (some .user)) := by
  have hkey : (KeyPair.full .user ⟨SeedText.publishedUserSecret, rfl⟩).publicKey
      SeedText.publishedScheme = .ok KeyText.publishedUserText :=
    (KeyText.decode_eq_ok_iff_encode (by decide)).mp KeyText.decode_publishedUserText
  have hreadSeed := SeedText.decode_of_encode SeedText.encode_publishedUserMaterial
  have hsigning : Role.user.isSigning = true := rfl
  have hrun := generate_of_draw (S := SeedText.publishedScheme) hsigning
    (RandomSource.draw_append ⟨SeedText.publishedUserSecret, rfl⟩ [] "exhausted")
    SeedText.encode_publishedUserMaterial hkey false
  obtain ⟨seed, key, hlengthSeed, hlengthKey, ⟨printed, hprinted, hlines⟩, -, -, hpublic, hseed,
      hreported⟩ :=
    generated_output_fits_together SeedText.publishedScheme hsigning
      ⟨SeedText.publishedUserSecret, rfl⟩ [] "exhausted"
  -- The two lines are the published texts.
  rw [hrun] at hprinted
  obtain rfl := Except.ok.inj hprinted
  rw [split_printGenerated (SeedText.isSolid_of_decode hreadSeed)
    (KeyText.isSolid_of_decode KeyText.decode_publishedUserText)] at hlines
  obtain ⟨hseedLine, hkeyLine⟩ := List.cons_eq_cons.mp hlines
  obtain rfl := String.toList_inj.mp hseedLine
  obtain rfl := String.toList_inj.mp (List.cons_eq_cons.mp hkeyLine).1
  refine ⟨hsigning, by rw [hrun]; rfl, hlengthSeed, hlengthKey, ?_, hseed, hreported⟩
  exact hpublic greetingDirectory.files "user.nk" " " "\n" (by decide) (by decide) rfl

end Command

end RoleKey
