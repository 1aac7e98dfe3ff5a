import RoleKey.Proofs.FileContents
import RoleKey.Proofs.GeneratedOutput
import RoleKey.Proofs.SeedClasses

/-!
What events and failures tell of a seed.

Between two states of the files that differ in the content of the seed file only, a path has the
same count of bytes in both, or leads to the seed file (`byteCount_cases`). So two seeds of one
class cannot be told apart by a command that shows their public key, nor by one that signs with
them, except by the count of bytes when the file that is signed is the seed file itself. The events
of generating follow from the role and the public key (`generate_events`). `events_tell_class_only`
puts this together, and `sign_events_tell_size` is a case in which the count differs.
-/

set_option autoImplicit false
set_option relaxedAutoImplicit false

namespace RoleKey

open Diagnostics (Event)

namespace Command

variable {S : Scheme} {files files' : Files} {inkey content content' : String}

/-! ### Two runs -/

/-- An event without its count of bytes. -/
def withoutSize (e : Event) : Event :=
  { e with fields := e.fields.filter fun field ↦ field.1 != "bytes" }

theorem map_withoutSize_signEvents (told : SeedClass) (m n : ℕ) :
    (signEvents told (.ok m)).map withoutSize = (signEvents told (.ok n)).map withoutSize := by
  unfold signEvents
  cases told.outcome with
  | error e => rfl
  | ok role =>
    dsimp only
    rw [List.map_append, List.map_append]
    rfl

/-- A class has no event of a file that was signed. -/
theorem fileSigned_not_mem_events (told : SeedClass) (size : ℕ) (role : Role) :
    fileSigned size role ∉ told.events := by
  rcases told with e | ⟨embedded, _ | _⟩
  · simp [SeedClass.events, fileSigned, pairEvent]
  · by_cases hsigning : embedded.isSigning = true <;>
      simp [SeedClass.events, fileSigned, pairEvent, hsigning]
  · simp [SeedClass.events, fileSigned, pairEvent]

/-- The count of bytes that is told is that of the file that was signed. -/
theorem size_of_mem_signEvents {told : SeedClass} {size : Except ReadFault ℕ} {n : ℕ} {role : Role}
    (h : fileSigned n role ∈ signEvents told size) : size = .ok n := by
  unfold signEvents at h
  split at h
  · rename_i signer signed _
    rcases List.mem_append.mp h with hevent | hsigned
    · exact absurd hevent (fileSigned_not_mem_events told n role)
    · obtain ⟨rfl, -⟩ : n = signed ∧ role.name = signer.name := by
        simpa [fileSigned, roleField] using hsigned
      rfl
  · exact absurd h (fileSigned_not_mem_events told n role)

theorem signFailure_ok (inkey data : String) (told : SeedClass) (m n : ℕ) :
    signFailure inkey data told (.ok m) = signFailure inkey data told (.ok n) := by
  unfold signFailure
  cases told.outcome <;> rfl

theorem seedIn_of_read (hread : files.read inkey = .ok (Text.utf8 content))
    (hfull : Text.trim content ≠ "") : seedIn files inkey = .ok (Text.trim content) :=
  seedIn_eq_ok_iff.mpr ⟨content, readText_of_read hread, rfl, hfull⟩

theorem byteCount_of_eq {path path' : String} (h : files path = files' path') :
    byteCount files path = byteCount files' path' := by
  rw [byteCount, byteCount, Files.read, Files.read, h]

/-- A path has the same count of bytes in both states, or leads to the file that differs. -/
theorem byteCount_cases (hdiffer : Files.DifferOnlyAt inkey files files')
    (hread : files.read inkey = .ok (Text.utf8 content))
    (hread' : files'.read inkey = .ok (Text.utf8 content')) (data : String) :
    byteCount files data = byteCount files' data ∨
      (byteCount files data = .ok (Text.utf8 content).length ∧
        byteCount files' data = .ok (Text.utf8 content').length) := by
  rcases hdiffer data with hsame | ⟨h, h'⟩
  · exact Or.inl (byteCount_of_eq hsame)
  · rw [byteCount_of_eq h, byteCount_of_eq h', byteCount, byteCount, hread, hread']
    exact Or.inr ⟨rfl, rfl⟩

/-! ### Generating -/

/-- The public key of the pair that is generated, if one is. -/
def generatedKey (S : Scheme) (role : Role) (source : RandomSource) : Option String :=
  (KeyPair.generate role source).1.toOption.bind fun pair ↦ (pair.publicKey S).toOption

/-- The events of generating, by the role and the public key. -/
def generationEvents (role : Role) : Option String → List Event
  | some key => [pairGenerated role, commandGenerated role key]
  | none => []

theorem generate_events (S : Scheme) (role : Role) (json : Bool) (source : RandomSource) :
    (generate S role json source).1.events = generationEvents role (generatedKey S role source) := by
  cases hmade : (KeyPair.generate role source).1 with
  | error e =>
    have hkey : generatedKey S role source = none := by
      rw [generatedKey, hmade]
      rfl
    rw [hkey, generate_of_error hmade]
    rfl
  | ok pair =>
    obtain ⟨hsigning, secret, rest, hdraw, rfl⟩ := KeyPair.generate_eq_ok_iff.mp hmade
    obtain ⟨seed, hseed, -⟩ := KeyPair.seed_returns S hsigning secret
    obtain ⟨key, hkey, -⟩ := KeyPair.publicKey_tells S (.full role secret) hsigning
    have hgenerated : generatedKey S role source = some key := by
      rw [generatedKey, hmade]
      exact toOption_eq_some_iff.mpr hkey
    rw [hgenerated, generate_of_draw hsigning hdraw hseed hkey]
    rfl

/-! ### Runs with the published seed -/

/-- The directory of the greeting, with this text as the seed file. -/
def seedDirectory (text : String) : Files.Directory :=
  greetingDirectory.put "user.nk" (Text.utf8 text)

theorem files_seedDirectory (text : String) :
    (seedDirectory text).files "user.nk" = ⟨true, .ok (Text.utf8 text)⟩ := rfl

theorem read_seedDirectory (text : String) :
    (seedDirectory text).files.read "user.nk" = .ok (Text.utf8 text) := rfl

theorem files_greeting (text : String) :
    (seedDirectory text).files "greeting" = ⟨true, .ok (Text.utf8 "Hello World")⟩ := rfl

theorem differOnlyAt_seedDirectory (text text' : String) :
    Files.DifferOnlyAt "user.nk" (seedDirectory text).files (seedDirectory text').files :=
  Files.Directory.differOnlyAt_put (files_seedDirectory text) (files_seedDirectory text')

theorem decode_publishedUserSeed :
    SeedText.decode SeedText.publishedUserSeed =
      .ok (.user, SeedText.publishedUserSecret ++ KeyText.publishedUserKey) :=
  SeedText.decode_of_encode SeedText.encode_publishedUserMaterial

/-- The published seed with a line end behind it, as a file usually holds it. -/
def endedUserSeed : String := SeedText.publishedUserSeed ++ "\n"

theorem trim_endedUserSeed : Text.trim endedUserSeed = SeedText.publishedUserSeed := by
  have hnone : Text.IsBlank "" := by decide
  have hend : Text.IsBlank "\n" := by decide
  have hends := (SeedText.isSolid_of_decode decode_publishedUserSeed).hasBareEnds
  have h := Text.trim_surrounded hnone hends hend
  rwa [String.empty_append] at h

/-- Another seed of a user, whose secret is all zeros. -/
def zeroUserSeed : String :=
  Envelope.write (SeedText.headerHigh .user :: SeedText.headerLow .user ::
    (List.replicate 32 0 ++ KeyText.publishedUserKey))

theorem decode_zeroUserSeed :
    SeedText.decode zeroUserSeed =
      .ok (.user, List.replicate 32 0 ++ KeyText.publishedUserKey) :=
  SeedText.decode_of_encode (SeedText.encode_eq_ok_iff.mpr ⟨.user, rfl, rfl, rfl, rfl⟩)

theorem trim_zeroUserSeed : Text.trim zeroUserSeed = zeroUserSeed :=
  Text.trim_of_isSolid (SeedText.isSolid_of_decode decode_zeroUserSeed)

/-- In the scheme with the one public key, any secret before that key is accepted. -/
theorem class_of_decode {text : String} (secret : Secret)
    (h : SeedText.decode text = .ok (.user, secret.bytes ++ KeyText.publishedUserKey)) :
    SeedClass.ofText SeedText.publishedScheme text = .readable .user true := by
  have hmade : KeyPair.ofSeed SeedText.publishedScheme text = .ok (.full .user secret) :=
    KeyPair.ofSeed_eq_ok_iff.mpr ⟨.user, secret, rfl, h, rfl⟩
  rw [SeedClass.ofText_of_ok h, hmade]
  rfl

/-! ### What is told -/

/-- The states of the files differ in the content of the seed file only, which is text and not blank
in either, and the two seeds in it are of one class. Then showing the public key has the same events
and the same failure in both; and so has signing any file, but for the count of bytes, which is that
of the file that is signed: the events are the same in full if that file is the same in both, or if
the two contents of the seed file are as long as each other. The events of generating follow from
the role and the public key. -/
theorem events_tell_class_only (S : Scheme) {files files' : Files}
    {inkey content content' : String}
    (hread : files.read inkey = .ok (Text.utf8 content))
    (hread' : files'.read inkey = .ok (Text.utf8 content'))
    (hfull : Text.trim content ≠ "") (hfull' : Text.trim content' ≠ "")
    (hclass : SeedClass.ofText S (Text.trim content) = SeedClass.ofText S (Text.trim content'))
    (hdiffer : Files.DifferOnlyAt inkey files files') :
    (publicKey S files inkey).events = (publicKey S files' inkey).events ∧
    (publicKey S files inkey).failure? = (publicKey S files' inkey).failure? ∧
    (∀ data, (sign S files inkey data).failure? = (sign S files' inkey data).failure? ∧
      (sign S files inkey data).events.map withoutSize =
        (sign S files' inkey data).events.map withoutSize ∧
      (∀ size role, fileSigned size role ∈ (sign S files inkey data).events →
        byteCount files data = .ok size) ∧
      (files data = files' data ∨ (Text.utf8 content).length = (Text.utf8 content').length →
        (sign S files inkey data).events = (sign S files' inkey data).events)) ∧
    ∀ role json source, (generate S role json source).1.events =
      generationEvents role (generatedKey S role source) := by
  have hseed := seedIn_of_read hread hfull
  have hseed' := seedIn_of_read hread' hfull'
  refine ⟨?_, ?_, fun data ↦ ?_, generate_events S⟩
  · rw [publicKey_events hseed, publicKey_events hseed', hclass]
  · rw [publicKey_failure hseed, publicKey_failure hseed', hclass]
  · rw [sign_failure hseed, sign_failure hseed', sign_events hseed, sign_events hseed', hclass]
    rcases byteCount_cases hdiffer hread hread' data with hsame | ⟨hsize, hsize'⟩
    · rw [hsame]
      exact ⟨rfl, rfl, fun _ _ ↦ size_of_mem_signEvents, fun _ ↦ rfl⟩
    · refine ⟨?_, ?_, fun _ _ ↦ size_of_mem_signEvents, ?_⟩
      · rw [hsize, hsize', signFailure_ok]
      · rw [hsize, hsize', map_withoutSize_signEvents _ _ (Text.utf8 content').length]
      · rintro (hdata | hlength)
        · rw [byteCount_of_eq hdata]
        · rw [hsize, hsize', hlength]

/-- Two seeds of one class in turn, and a greeting to sign. -/
theorem events_tell_class_only_greeting :
    SeedText.publishedUserSeed ≠ zeroUserSeed ∧
    SeedClass.ofText SeedText.publishedScheme (Text.trim endedUserSeed) =
      SeedClass.ofText SeedText.publishedScheme (Text.trim zeroUserSeed) ∧
    (publicKey SeedText.publishedScheme (seedDirectory endedUserSeed).files "user.nk").events =
      (publicKey SeedText.publishedScheme (seedDirectory zeroUserSeed).files "user.nk").events ∧
    (sign SeedText.publishedScheme (seedDirectory endedUserSeed).files
        "user.nk" "greeting").events =
      (sign SeedText.publishedScheme (seedDirectory zeroUserSeed).files
        "user.nk" "greeting").events := by
  have hother : SeedText.publishedUserSeed ≠ zeroUserSeed := by
    intro h
    have hread := decode_publishedUserSeed
    rw [h, decode_zeroUserSeed] at hread
    exact absurd (Prod.mk.inj (Except.ok.inj hread)).2 (by decide)
  have hfull : Text.trim endedUserSeed ≠ "" := by
    rw [trim_endedUserSeed]
    decide
  have hfull' : Text.trim zeroUserSeed ≠ "" := by
    rw [trim_zeroUserSeed]
    intro h
    exact absurd (SeedText.length_of_decode decode_zeroUserSeed) (by rw [h]; decide)
  have hclass : SeedClass.ofText SeedText.publishedScheme (Text.trim endedUserSeed) =
      SeedClass.ofText SeedText.publishedScheme (Text.trim zeroUserSeed) := by
    rw [trim_endedUserSeed, trim_zeroUserSeed,
      class_of_decode ⟨SeedText.publishedUserSecret, rfl⟩ decode_publishedUserSeed,
      class_of_decode ⟨List.replicate 32 0, rfl⟩ decode_zeroUserSeed]
  obtain ⟨hpublic, -, hsign, -⟩ := events_tell_class_only SeedText.publishedScheme
    (read_seedDirectory endedUserSeed) (read_seedDirectory zeroUserSeed) hfull hfull' hclass
    (differOnlyAt_seedDirectory endedUserSeed zeroUserSeed)
  have hgreeting : (seedDirectory endedUserSeed).files "greeting" =
      (seedDirectory zeroUserSeed).files "greeting" := by
    rw [files_greeting, files_greeting]
  exact ⟨hother, hclass, hpublic, (hsign "greeting").2.2.2 (Or.inl hgreeting)⟩

/-- The same seed without a line end behind it and with one: if the seed file itself is signed, the
events tell the one from the other. -/
theorem sign_events_tell_size :
    (seedDirectory SeedText.publishedUserSeed).files.read "user.nk" =
      .ok (Text.utf8 SeedText.publishedUserSeed) ∧
    (seedDirectory endedUserSeed).files.read "user.nk" = .ok (Text.utf8 endedUserSeed) ∧
    Text.trim SeedText.publishedUserSeed ≠ "" ∧ Text.trim endedUserSeed ≠ "" ∧
    SeedClass.ofText SeedText.publishedScheme (Text.trim SeedText.publishedUserSeed) =
      SeedClass.ofText SeedText.publishedScheme (Text.trim endedUserSeed) ∧
    Files.DifferOnlyAt "user.nk" (seedDirectory SeedText.publishedUserSeed).files
      (seedDirectory endedUserSeed).files ∧
    (sign SeedText.publishedScheme (seedDirectory SeedText.publishedUserSeed).files
        "user.nk" "user.nk").events ≠
      (sign SeedText.publishedScheme (seedDirectory endedUserSeed).files
        "user.nk" "user.nk").events := by
  have htrim : Text.trim SeedText.publishedUserSeed = SeedText.publishedUserSeed :=
    Text.trim_of_isSolid (SeedText.isSolid_of_decode decode_publishedUserSeed)
  have hfull : SeedText.publishedUserSeed ≠ "" := by decide
  have hseed := seedIn_of_read (read_seedDirectory SeedText.publishedUserSeed)
    (by rwa [htrim])
  have hseed' := seedIn_of_read (read_seedDirectory endedUserSeed)
    (by rwa [trim_endedUserSeed])
  rw [htrim] at hseed ⊢
  rw [trim_endedUserSeed] at hseed' ⊢
  refine ⟨read_seedDirectory _, read_seedDirectory _, hfull, hfull, rfl,
    differOnlyAt_seedDirectory _ _, ?_⟩
  have hshort : byteCount (seedDirectory SeedText.publishedUserSeed).files "user.nk" =
      .ok 109 := by
    rw [byteCount, read_seedDirectory]
    decide +kernel
  have hlong : byteCount (seedDirectory endedUserSeed).files "user.nk" = .ok 110 := by
    rw [byteCount, read_seedDirectory]
    decide +kernel
  rw [sign_events hseed, sign_events hseed', hshort, hlong,
    class_of_decode ⟨SeedText.publishedUserSecret, rfl⟩ decode_publishedUserSeed]
  decide

end Command

end RoleKey
