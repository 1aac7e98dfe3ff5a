import RoleKey.Proofs.InspectionReport
import RoleKey.Proofs.SeedAcceptance
import RoleKey.Proofs.SignThenVerify

/-!
What an inspection reports, by what its text is.

The kind follows from the role that a text claims (`Inspection.kind_ofTrimmed`). A text is reported
as what it claims to be exactly if it is written for a public role and a public key
(`Inspection.report_publicKey_iff`), written for a private key (`Inspection.report_privateKey_iff`)
or read as a seed (`Inspection.report_seed_iff`), and otherwise with an error
(`Inspection.accepted_or_error`). `Report.MatchesCodec` puts these together with what pairs are made
of, and `inspect_matches_codec` says that it holds of the report of every value.
-/

set_option autoImplicit false
set_option relaxedAutoImplicit false

namespace RoleKey

/-! ### Kinds and claims -/

namespace KeyKind

/-- The kind of a text that claims a role, or none. -/
def ofClaim : Option Role → KeyKind
  | some .seed => seed
  | some .privateKey => privateKey
  | some _ => publicKey
  | none => unknown

variable {claim : Option Role}

theorem ofClaim_eq_publicKey_iff :
    ofClaim claim = publicKey ↔ ∃ role : Role, role.isPublic = true ∧ claim = some role := by
  rcases claim with _ | role
  · simp [ofClaim]
  · cases role <;> simp [ofClaim, Role.isPublic]

theorem ofClaim_eq_seed_iff : ofClaim claim = seed ↔ claim = some .seed := by
  rcases claim with _ | role
  · simp [ofClaim]
  · cases role <;> simp [ofClaim]

theorem ofClaim_eq_privateKey_iff : ofClaim claim = privateKey ↔ claim = some .privateKey := by
  rcases claim with _ | role
  · simp [ofClaim]
  · cases role <;> simp [ofClaim]

end KeyKind

/-! ### The verdict -/

namespace Inspection

variable {text : String} {role : Role}

theorem faultOf_eq_none_iff {α : Type} {outcome : Except KeyError α} :
    faultOf outcome = none ↔ ∃ a, outcome = .ok a := by
  cases outcome <;> simp [faultOf]

/-- A payload of the length wanted is read exactly if the text is written for one. -/
theorem payloadOf_eq_ok_iff (hrole : role ≠ .seed) {length : ℕ} {payload : Bytes} :
    payloadOf role length text = .ok payload ↔
      payload.length = length ∧ KeyText.encode role.byte payload = .ok text := by
  rw [← KeyText.decode_eq_ok_iff_encode hrole, payloadOf]
  cases KeyText.decode role.byte text with
  | error e => exact iff_of_false (fun h ↦ nomatch h) fun h ↦ nomatch h.2
  | ok read =>
    change (if read.length = length then Except.ok read else _) = _ ↔ _
    by_cases hlength : read.length = length
    · rw [if_pos hlength]
      constructor
      · intro h
        obtain rfl := Except.ok.inj h
        exact ⟨hlength, rfl⟩
      · exact fun h ↦ h.2
    · rw [if_neg hlength]
      refine iff_of_false (fun h ↦ nomatch h) fun h ↦ hlength ?_
      rw [Except.ok.inj h.2, h.1]

/-- The kind depends on the claim alone. -/
theorem kind_ofTrimmed (text : String) :
    (ofTrimmed text).kind = KeyKind.ofClaim (KeyText.roleOf text) := by
  unfold ofTrimmed
  rcases KeyText.roleOf text with _ | role
  · rfl
  · cases role <;> rfl

theorem ofTrimmed_of_public (hpublic : role.isPublic = true)
    (hclaim : KeyText.roleOf text = some role) :
    ofTrimmed text =
      ⟨.publicKey, some role, faultOf (payloadOf role KeyText.publicLength text)⟩ := by
  rw [ofTrimmed, hclaim]
  cases role <;> first | rfl | cases hpublic

theorem ofTrimmed_of_seed (hclaim : KeyText.roleOf text = some .seed) :
    ofTrimmed text = ⟨.seed, (SeedText.decode text).toOption.map Prod.fst,
      faultOf (SeedText.decode text)⟩ := by
  rw [ofTrimmed, hclaim]

theorem ofTrimmed_of_private (hclaim : KeyText.roleOf text = some .privateKey) :
    ofTrimmed text = ⟨.privateKey, none,
      faultOf (payloadOf .privateKey KeyText.privateLength text)⟩ := by
  rw [ofTrimmed, hclaim]

theorem report_eq_accepted_iff {i : Inspection} {kind : KeyKind} {role : Option Role} :
    i.report = .accepted kind role ↔ i.kind = kind ∧ i.role = role ∧ i.fault = none := by
  obtain ⟨kind, role, fault⟩ := i
  cases fault <;> simp [report, Report.accepted, valid]

/-- A text is reported as a public key exactly if it is written for a public role and 32 bytes. -/
theorem report_publicKey_iff :
    (ofTrimmed text).report = .accepted .publicKey (some role) ↔
      role.isPublic = true ∧
        ∃ payload, payload.length = 32 ∧ KeyText.encode role.byte payload = .ok text := by
  rw [report_eq_accepted_iff]
  constructor
  · rintro ⟨hkind, hrole, hfault⟩
    rw [kind_ofTrimmed, KeyKind.ofClaim_eq_publicKey_iff] at hkind
    obtain ⟨claimed, hpublic, hclaim⟩ := hkind
    rw [ofTrimmed_of_public hpublic hclaim] at hrole hfault
    obtain rfl := Option.some.inj hrole
    obtain ⟨payload, hpayload⟩ := faultOf_eq_none_iff.mp hfault
    exact ⟨hpublic, payload, (payloadOf_eq_ok_iff (Role.ne_seed_of_isPublic hpublic)).mp hpayload⟩
  · rintro ⟨hpublic, payload, hlength, hwritten⟩
    have hseed := Role.ne_seed_of_isPublic hpublic
    have hread := (KeyText.decode_eq_ok_iff_encode hseed).mpr hwritten
    rw [ofTrimmed_of_public hpublic (KeyText.roleOf_of_decode hread)]
    exact ⟨rfl, rfl, faultOf_eq_none_iff.mpr
      ⟨payload, (payloadOf_eq_ok_iff hseed).mpr ⟨hlength, hwritten⟩⟩⟩

/-- A text is reported as a private key exactly if it is written for 64 bytes under that role. -/
theorem report_privateKey_iff :
    (ofTrimmed text).report = .accepted .privateKey none ↔
      ∃ payload, payload.length = 64 ∧
        KeyText.encode Role.privateKey.byte payload = .ok text := by
  have hseed : Role.privateKey ≠ .seed := Role.noConfusion
  rw [report_eq_accepted_iff]
  constructor
  · rintro ⟨hkind, -, hfault⟩
    rw [kind_ofTrimmed, KeyKind.ofClaim_eq_privateKey_iff] at hkind
    rw [ofTrimmed_of_private hkind] at hfault
    obtain ⟨payload, hpayload⟩ := faultOf_eq_none_iff.mp hfault
    exact ⟨payload, (payloadOf_eq_ok_iff hseed).mp hpayload⟩
  · rintro ⟨payload, hlength, hwritten⟩
    have hread := (KeyText.decode_eq_ok_iff_encode hseed).mpr hwritten
    rw [ofTrimmed_of_private (KeyText.roleOf_of_decode hread)]
    exact ⟨rfl, rfl, faultOf_eq_none_iff.mpr
      ⟨payload, (payloadOf_eq_ok_iff hseed).mpr ⟨hlength, hwritten⟩⟩⟩

/-- A text is reported as a seed of a role exactly if it is read as one. -/
theorem report_seed_iff :
    (ofTrimmed text).report = .accepted .seed (some role) ↔
      ∃ material, SeedText.decode text = .ok (role, material) := by
  rw [report_eq_accepted_iff]
  constructor
  · rintro ⟨hkind, hrole, hfault⟩
    rw [kind_ofTrimmed, KeyKind.ofClaim_eq_seed_iff] at hkind
    rw [ofTrimmed_of_seed hkind] at hrole hfault
    obtain ⟨⟨embedded, material⟩, hread⟩ := faultOf_eq_none_iff.mp hfault
    rw [hread] at hrole
    obtain rfl := Option.some.inj hrole
    exact ⟨material, hread⟩
  · rintro ⟨material, hread⟩
    rw [ofTrimmed_of_seed (SeedText.roleOf_of_decode hread), hread]
    exact ⟨rfl, rfl, rfl⟩

/-- A report is that of a text which is what it claims to be, or has an error. -/
theorem accepted_or_error (text : String) :
    (∃ role, (ofTrimmed text).report = .accepted .publicKey (some role)) ∨
      (∃ role, (ofTrimmed text).report = .accepted .seed (some role)) ∨
      (ofTrimmed text).report = .accepted .privateKey none ∨
      ((ofTrimmed text).report.valid = false ∧
        ∃ error, (ofTrimmed text).report.error = some error) := by
  rcases hfault : (ofTrimmed text).fault with _ | fault
  · simp only [report_eq_accepted_iff, hfault]
    rcases hclaim : KeyText.roleOf text with _ | role
    · rw [ofTrimmed, hclaim] at hfault
      cases hfault
    · by_cases hpublic : role.isPublic = true
      · rw [ofTrimmed_of_public hpublic hclaim]
        exact Or.inl ⟨role, rfl, rfl, trivial⟩
      · cases role with
        | seed =>
          rw [ofTrimmed_of_seed hclaim] at hfault ⊢
          obtain ⟨⟨embedded, material⟩, hread⟩ := faultOf_eq_none_iff.mp hfault
          rw [hread]
          exact Or.inr (Or.inl ⟨embedded, rfl, rfl, trivial⟩)
        | privateKey =>
          rw [ofTrimmed_of_private hclaim]
          exact Or.inr (Or.inr (Or.inl ⟨rfl, rfl, trivial⟩))
        | server | cluster | operator | account | user | curve => exact absurd rfl hpublic
  · refine Or.inr (Or.inr (Or.inr ⟨?_, fault.message, ?_⟩))
    · rw [report, valid, hfault]
      rfl
    · rw [report, hfault]
      rfl

end Inspection

/-! ### Reports and the codec -/

/-- What a report says of the text without the blanks around it. -/
structure Report.MatchesCodec (S : Scheme) (text : String) (report : Report) : Prop where
  /-- The kind depends on the claim alone. -/
  kind : report.kind = KeyKind.ofClaim (KeyText.roleOf text)
  /-- A valid public key is what is written for a public role and 32 bytes. -/
  publicKey (role : Role) : report = .accepted .publicKey (some role) ↔
    role.isPublic = true ∧
      ∃ payload, payload.length = 32 ∧ KeyText.encode role.byte payload = .ok text
  /-- A valid seed is what is read as one. -/
  seed (role : Role) : report = .accepted .seed (some role) ↔
    ∃ material, SeedText.decode text = .ok (role, material)
  /-- A valid private key is what is written for 64 bytes under that role. -/
  privateKey : report = .accepted .privateKey none ↔
    ∃ payload, payload.length = 64 ∧ KeyText.encode Role.privateKey.byte payload = .ok text
  /-- Anything else is not valid, and has an error. -/
  otherwise : (∃ role, report = .accepted .publicKey (some role)) ∨
    (∃ role, report = .accepted .seed (some role)) ∨
    report = .accepted .privateKey none ∨
    (report.valid = false ∧ ∃ error, report.error = some error)
  /-- A public half is made of the valid public keys of roles that sign. -/
  ofAnyPublicKey : (∃ pair, KeyPair.ofAnyPublicKey text = .ok pair) ↔
    ∃ role : Role, role.isSigning = true ∧ report = .accepted .publicKey (some role)
  /-- What a pair is made of as a seed is a valid seed of its role. -/
  ofSeed (pair : KeyPair) : KeyPair.ofSeed S text = .ok pair →
    report = .accepted .seed (some pair.role)
  /-- A valid seed of a role that signs is refused for the public half in it, if at all. -/
  ofSeed_error (role : Role) (e : KeyError) : role.isSigning = true →
    report = .accepted .seed (some role) → KeyPair.ofSeed S text = .error e → e = .invalidSeed

theorem Inspection.exists_ofAnyPublicKey_iff {text : String} :
    (∃ pair, KeyPair.ofAnyPublicKey text = .ok pair) ↔
      ∃ role : Role, role.isSigning = true ∧
        (ofTrimmed text).report = .accepted .publicKey (some role) := by
  simp only [KeyPair.ofAnyPublicKey_eq_ok_iff, report_publicKey_iff]
  rw [exists_comm]
  refine exists_congr fun role ↦ ?_
  constructor
  · rintro ⟨pair, h⟩
    obtain ⟨hsigning, key, hread, -⟩ := KeyPair.ofPublicKey_eq_ok_iff.mp h
    have hpublic := Role.isPublic_of_isSigning hsigning
    exact ⟨hsigning, hpublic, key.bytes, key.length_eq,
      (KeyText.decode_eq_ok_iff_encode (Role.ne_seed_of_isPublic hpublic)).mp hread⟩
  · rintro ⟨hsigning, hpublic, payload, hlength, hwritten⟩
    have hread :=
      (KeyText.decode_eq_ok_iff_encode (Role.ne_seed_of_isPublic hpublic)).mpr hwritten
    exact ⟨_, KeyPair.ofPublicKey_eq_ok_iff.mpr ⟨hsigning, ⟨payload, hlength⟩, hread, rfl⟩⟩

theorem Inspection.matchesCodec (S : Scheme) (text : String) :
    (ofTrimmed text).report.MatchesCodec S text where
  kind := kind_ofTrimmed text
  publicKey _ := report_publicKey_iff
  seed _ := report_seed_iff
  privateKey := report_privateKey_iff
  otherwise := accepted_or_error text
  ofAnyPublicKey := exists_ofAnyPublicKey_iff
  ofSeed pair h := by
    obtain ⟨role, secret, -, hread, rfl⟩ := KeyPair.ofSeed_eq_ok_iff.mp h
    exact report_seed_iff.mpr ⟨_, hread⟩
  ofSeed_error role e hsigning hreport h := by
    obtain ⟨bytes, hread⟩ := report_seed_iff.mp hreport
    obtain ⟨material, rfl⟩ := SeedText.exists_material_of_decode hread
    rw [KeyPair.ofSeed_of_decode hread, if_pos hsigning] at h
    split_ifs at h
    exact (Except.error.inj h).symm

/-- Inspecting a value succeeds in both modes, with one report in either text, whatever the value;
and the report says of the value without the blanks around it what reading and writing keys say,
and what makes pairs of them. -/
theorem inspect_matches_codec (S : Scheme) (value : String) :
    ∃ report, Reports value report ∧ report.MatchesCodec S (Text.trim value) :=
  ⟨_, reports_iff.mpr rfl, Inspection.matchesCodec S (Text.trim value)⟩

/-- Blanks around a text make no difference to its inspection. -/
theorem Inspection.ofText_surrounded {front back : String} (hfront : Text.IsBlank front)
    (hback : Text.IsBlank back) (text : String) :
    ofText (front ++ text ++ back) = ofText text := by
  rw [ofText, ofText, Text.trim_surrounded_eq hfront hback]

/-- A text without blanks at its ends is reported as it is, whatever blanks stand around it. -/
theorem reports_surrounded {front text back : String} (hfront : Text.IsBlank front)
    (htext : Text.HasBareEnds text.toList) (hback : Text.IsBlank back) :
    Reports (front ++ text ++ back) (Inspection.ofTrimmed text).report := by
  refine reports_iff.mpr ?_
  rw [Inspection.ofText, Text.trim_surrounded hfront htext hback]

/-- A public key is reported as one, whatever blanks stand around it. -/
theorem reports_publicKey_surrounded {role : Role} {payload : Bytes} {front text back : String}
    (hpublic : role.isPublic = true) (hlength : payload.length = 32)
    (hwritten : KeyText.encode role.byte payload = .ok text) (hfront : Text.IsBlank front)
    (hback : Text.IsBlank back) :
    Reports (front ++ text ++ back) (.accepted .publicKey (some role)) := by
  have hread := (KeyText.decode_eq_ok_iff_encode (Role.ne_seed_of_isPublic hpublic)).mpr hwritten
  rw [← Inspection.report_publicKey_iff.mpr ⟨hpublic, payload, hlength, hwritten⟩]
  exact reports_surrounded hfront (KeyText.isSolid_of_decode hread).hasBareEnds hback

/-- A text that claims no role. -/
example : Reports " hello\n" ⟨.unknown, none, false, some "unrecognized prefix"⟩ :=
  reports_iff.mpr (by decide)

end RoleKey
