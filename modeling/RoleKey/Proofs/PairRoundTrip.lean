import RoleKey.Proofs.KeyRecognition
import RoleKey.Proofs.SeedAcceptance

/-!
Every pair that can be made comes back from its own texts.

A run of calls holds the pairs that were made so far. A call makes a pair from a random source, from
a secret or from a text, which may be one that a held pair gave away, or it copies a held pair; a
call that is refused changes nothing (`Holding.step`). Whatever makes a pair refuses a role that
does not sign, so that every held pair has one that does: `isSigning_of_made` says so of one call,
and `isSigning_of_mem_run` of a run. The role is all that the round trips need: `publicKey_tells`
says what readers make of the text of the public key, and `seed_returns` and `privateKey_returns`
what comes back from the texts of a full pair. `held_pairs_round_trip` puts this together.
-/

set_option autoImplicit false
set_option relaxedAutoImplicit false

namespace RoleKey

/-! ### The texts of one pair -/

namespace KeyPair

/-- A pair of a role that signs has a text for its public key, and every reader takes that text for
the public key of the pair. -/
theorem publicKey_tells (S : Scheme) (pair : KeyPair) (hsigning : pair.role.isSigning = true) :
    ∃ text, pair.publicKey S = .ok text ∧
      KeyText.decode pair.role.byte text = .ok (pair.publicOctets S).bytes ∧
      (∀ role : Role, Recognition.isPublicKeyOf role text = true ↔ role = pair.role) ∧
      ofAnyPublicKey text = .ok (publicOnly pair.role (pair.publicOctets S)) := by
  obtain ⟨text, htext, hread⟩ := KeyText.decode_encode pair.role (pair.publicOctets S).bytes
  have hkey : Recognition.isPublicKeyOf pair.role text = true :=
    Recognition.isPublicKeyOf_iff.mpr ⟨_, (pair.publicOctets S).length_eq, hread⟩
  refine ⟨text, htext, hread, fun role ↦ ⟨fun hrole ↦ ?_, ?_⟩, ?_⟩
  · exact Recognition.isPublicKeyOf_unique hrole hkey
  · rintro rfl
    exact hkey
  · rw [ofAnyPublicKey_eq_ok_iff]
    exact ⟨pair.role, ofPublicKey_eq_ok_iff.mpr ⟨hsigning, _, hread, rfl⟩⟩

/-- The seed of a full pair is read as its role and material and makes the same pair again. -/
theorem seed_returns (S : Scheme) {role : Role} (hsigning : role.isSigning = true)
    (secret : Secret) :
    ∃ text, (full role secret).seed S = .ok text ∧
      SeedText.decode text = .ok (role, (materialOf S secret).bytes) ∧
      ofSeed S text = .ok (full role secret) := by
  obtain ⟨text, htext⟩ : ∃ text, SeedText.encode role.byte (materialOf S secret).bytes = .ok text :=
    ⟨_, SeedText.encode_eq_spareText (Role.isPublic_of_isSigning hsigning)
      (materialOf S secret).length_eq⟩
  have hread := SeedText.decode_of_encode htext
  exact ⟨text, htext, hread, ofSeed_eq_ok_iff.mpr ⟨role, secret, hsigning, hread, rfl⟩⟩

/-- The text of the private key of a full pair is read as its material. -/
theorem privateKey_returns (S : Scheme) (role : Role) (secret : Secret) :
    ∃ text, (full role secret).privateKey S = .ok text ∧
      KeyText.decode Role.privateKey.byte text = .ok (materialOf S secret).bytes :=
  KeyText.decode_encode .privateKey (materialOf S secret).bytes

/-! ### Pairs that are made -/

variable {pair : KeyPair}

theorem ofSecret_eq_ok_iff {role : Role} {secret : Secret} :
    ofSecret role secret = .ok pair ↔ role.isSigning = true ∧ full role secret = pair := by
  rw [ofSecret]
  split_ifs with hsigning <;> simp [hsigning]

/-- A pair is generated exactly if the role signs and the source gives the secret. -/
theorem generate_eq_ok_iff {role : Role} {source : RandomSource} :
    (generate role source).1 = .ok pair ↔ role.isSigning = true ∧
      ∃ secret rest, source.draw secretLength = (.ok secret, rest) ∧ full role secret = pair := by
  rw [generate]
  split_ifs with hsigning
  · rcases hdraw : source.draw secretLength with ⟨complaint | secret, rest⟩
    · simp
    · simp [ofSecret_eq_ok_iff, hsigning]
  · simp [hsigning]

end KeyPair

/-! ### Runs of calls -/

namespace Holding

/-- The text that a call is given. -/
inductive Given where
  /-- Any text. -/
  | literal (text : String)
  /-- The public key of the pair at this place. -/
  | publicKeyOf (place : ℕ)
  /-- The private key of the pair at this place. -/
  | privateKeyOf (place : ℕ)
  /-- The seed of the pair at this place. -/
  | seedOf (place : ℕ)

/-- A call that makes a pair. -/
inductive Call where
  | generate (role : Role) (source : RandomSource)
  | ofSecret (role : Role) (secret : Secret)
  | ofSeed (text : Given)
  | ofPublicKey (role : Role) (text : Given)
  | ofAnyPublicKey (text : Given)
  /-- A copy of the pair at this place. -/
  | clone (place : ℕ)

/-- The text itself, if there is a pair at the place and the pair gives it away. -/
def Given.text (S : Scheme) (held : List KeyPair) : Given → Option String
  | literal text => some text
  | publicKeyOf place => held[place]?.bind fun pair ↦ (pair.publicKey S).toOption
  | privateKeyOf place => held[place]?.bind fun pair ↦ (pair.privateKey S).toOption
  | seedOf place => held[place]?.bind fun pair ↦ (pair.seed S).toOption

/-- The pair that a call makes, if it is not refused. -/
def Call.made (S : Scheme) (held : List KeyPair) : Call → Option KeyPair
  | generate role source => (KeyPair.generate role source).1.toOption
  | ofSecret role secret => (KeyPair.ofSecret role secret).toOption
  | ofSeed given => (given.text S held).bind fun text ↦ (KeyPair.ofSeed S text).toOption
  | ofPublicKey role given =>
    (given.text S held).bind fun text ↦ (KeyPair.ofPublicKey role text).toOption
  | ofAnyPublicKey given =>
    (given.text S held).bind fun text ↦ (KeyPair.ofAnyPublicKey text).toOption
  | clone place => held[place]?

/-- The pairs held after a call: one more, unless the call is refused. -/
def step (S : Scheme) (held : List KeyPair) (call : Call) : List KeyPair :=
  held ++ (call.made S held).toList

/-- The pairs held after calls one after the other, in the order in which they were made. -/
def run (S : Scheme) (calls : List Call) : List KeyPair := calls.foldl (step S) []

variable {S : Scheme} {held : List KeyPair}

theorem Given.text_seedOf {place : ℕ} {pair : KeyPair} {text : String}
    (hpair : held[place]? = some pair) (htext : pair.seed S = .ok text) :
    (seedOf place).text S held = some text := by
  rw [Given.text, hpair]
  exact toOption_eq_some_iff.mpr htext

theorem step_of_made {call : Call} {pair : KeyPair} (h : call.made S held = some pair) :
    step S held call = held ++ [pair] := by
  rw [step, h, Option.toList_some]

/-- Whatever call makes a pair, the pair has a role that signs: each constructor asks for it, and a
copy has the role of a held pair. -/
theorem isSigning_of_made (hheld : ∀ pair ∈ held, pair.role.isSigning = true) {call : Call}
    {pair : KeyPair} (h : call.made S held = some pair) : pair.role.isSigning = true := by
  cases call with
  | generate role source =>
    obtain ⟨hsigning, _, _, -, rfl⟩ := KeyPair.generate_eq_ok_iff.mp (toOption_eq_some_iff.mp h)
    exact hsigning
  | ofSecret role secret =>
    obtain ⟨hsigning, rfl⟩ := KeyPair.ofSecret_eq_ok_iff.mp (toOption_eq_some_iff.mp h)
    exact hsigning
  | ofSeed given =>
    obtain ⟨text, -, htext⟩ := Option.bind_eq_some_iff.mp h
    obtain ⟨_, _, hsigning, -, rfl⟩ := KeyPair.ofSeed_eq_ok_iff.mp (toOption_eq_some_iff.mp htext)
    exact hsigning
  | ofPublicKey role given =>
    obtain ⟨text, -, htext⟩ := Option.bind_eq_some_iff.mp h
    obtain ⟨hsigning, _, -, rfl⟩ :=
      KeyPair.ofPublicKey_eq_ok_iff.mp (toOption_eq_some_iff.mp htext)
    exact hsigning
  | ofAnyPublicKey given =>
    obtain ⟨text, -, htext⟩ := Option.bind_eq_some_iff.mp h
    obtain ⟨role, hrole⟩ := KeyPair.ofAnyPublicKey_eq_ok_iff.mp (toOption_eq_some_iff.mp htext)
    obtain ⟨hsigning, _, -, rfl⟩ := KeyPair.ofPublicKey_eq_ok_iff.mp hrole
    exact hsigning
  | clone place => exact hheld pair (List.mem_of_getElem? h)

theorem isSigning_of_mem_step (hheld : ∀ pair ∈ held, pair.role.isSigning = true) (call : Call) :
    ∀ pair ∈ step S held call, pair.role.isSigning = true := by
  intro pair hpair
  rcases List.mem_append.mp hpair with hold | hnew
  · exact hheld pair hold
  · exact isSigning_of_made hheld (Option.mem_toList.mp hnew)

theorem isSigning_of_mem_foldl_step (calls : List Call) :
    ∀ held : List KeyPair, (∀ pair ∈ held, pair.role.isSigning = true) →
      ∀ pair ∈ calls.foldl (step S) held, pair.role.isSigning = true := by
  -- On the calls, for whatever pairs are held before them, since each call changes those.
  induction calls with
  | nil =>
    intro held hheld
    exact hheld
  | cons call rest ih =>
    intro held hheld
    exact ih _ (isSigning_of_mem_step hheld call)

/-- Every pair that a run comes to hold has a role that signs. -/
theorem isSigning_of_mem_run {calls : List Call} {pair : KeyPair} (h : pair ∈ run S calls) :
    pair.role.isSigning = true :=
  isSigning_of_mem_foldl_step calls [] (fun _ hnone ↦ absurd hnone List.not_mem_nil) pair h

end Holding

open KeyPair Holding

/-- Whatever calls were made, every pair that is held comes back from its texts. Its role signs. It
has a text of 56 characters for its public key, which begins with the character of the role, is a
public key, and is one of this role and of no other; the pair that is made of it has the same role
and the same public half. A pair without its secret gives away neither seed nor private key and does
not sign, each with its own refusal. A pair with its secret gives away both and signs all data; its
seed makes the same pair again, and the private key holds the same 64 bytes as the seed. -/
theorem held_pairs_round_trip (S : Scheme) (calls : List Call) (pair : KeyPair)
    (hheld : pair ∈ run S calls) :
    pair.role.isSigning = true ∧
    (∃ text, pair.publicKey S = .ok text ∧ text.length = 56 ∧
      (∃ rest, text.toList = pair.role.leadingChar :: rest) ∧
      Recognition.isPublicKey text = true ∧
      (∀ role : Role, Recognition.isPublicKeyOf role text = true ↔ role = pair.role) ∧
      ofAnyPublicKey text = .ok (publicOnly pair.role (pair.publicOctets S))) ∧
    (pair.canSign = false → pair.seed S = .error .noSeed ∧
      pair.privateKey S = .error .noPrivateKey ∧
      ∀ data, pair.sign S data = .error .cannotSign) ∧
    (pair.canSign = true → ∃ seedText privateText material,
      pair.seed S = .ok seedText ∧ pair.privateKey S = .ok privateText ∧
      (∀ data, ∃ signature, pair.sign S data = .ok signature) ∧
      ofSeed S seedText = .ok pair ∧
      material.length = 64 ∧ SeedText.decode seedText = .ok (pair.role, material) ∧
      KeyText.decode Role.privateKey.byte privateText = .ok material) := by
  have hsigning := isSigning_of_mem_run hheld
  refine ⟨hsigning, ?_, ?_, ?_⟩
  · obtain ⟨text, htext, hread, hrole, hmade⟩ := publicKey_tells S pair hsigning
    have hkey := (hrole pair.role).mpr rfl
    refine ⟨text, htext, Recognition.length_of_isPublicKeyOf hkey, KeyText.toList_of_decode hread,
      ?_, hrole, hmade⟩
    exact Recognition.isPublicKey_iff.mpr ⟨_, Role.isPublic_of_isSigning hsigning, hkey⟩
  · intro hpublic
    cases pair with
    | full role secret => exact absurd hpublic (by simp [canSign])
    | publicOnly role key => exact ⟨rfl, rfl, fun _ ↦ rfl⟩
  · intro hfull
    cases pair with
    | full role secret =>
      obtain ⟨seedText, hseed, hread, hmade⟩ := seed_returns S hsigning secret
      obtain ⟨privateText, hprivate, hreadPrivate⟩ := privateKey_returns S role secret
      exact ⟨seedText, privateText, (materialOf S secret).bytes, hseed, hprivate,
        fun data ↦ ⟨_, rfl⟩, hmade, (materialOf S secret).length_eq, hread, hreadPrivate⟩
    | publicOnly role key => exact absurd hfull (by simp [canSign])

/-- Thirty-two bytes that are no point of the curve, as a public half. -/
def offCurve : PublicOctets := ⟨2 :: List.replicate 31 0, rfl⟩

/-- Calls that generate a pair of users with the published secret, make it again from its seed, and
take a public key of servers that is no point of the curve. -/
def sampleCalls : List Call :=
  [.generate .user ⟨SeedText.publishedUserSecret, ""⟩, .ofSeed (.seedOf 0),
    .ofPublicKey .server
      (.literal (Envelope.write (Role.server.byte :: offCurve.bytes)))]

theorem run_sampleCalls :
    run SeedText.publishedScheme sampleCalls =
      [full .user ⟨SeedText.publishedUserSecret, rfl⟩,
        full .user ⟨SeedText.publishedUserSecret, rfl⟩, publicOnly .server offCurve] := by
  let pair : KeyPair := full .user ⟨SeedText.publishedUserSecret, rfl⟩
  obtain ⟨text, htext, -, hagain⟩ := seed_returns SeedText.publishedScheme
    (rfl : Role.user.isSigning = true) ⟨SeedText.publishedUserSecret, rfl⟩
  have hgenerated : (Call.generate .user ⟨SeedText.publishedUserSecret, ""⟩).made
      SeedText.publishedScheme [] = some pair := rfl
  have hseed : (Call.ofSeed (.seedOf 0)).made SeedText.publishedScheme [pair] = some pair := by
    rw [Call.made, Given.text_seedOf rfl htext, Option.bind_some, hagain]
    rfl
  have hkey : ofPublicKey .server (Envelope.write (Role.server.byte :: offCurve.bytes)) =
      .ok (publicOnly .server offCurve) :=
    ofPublicKey_eq_ok_iff.mpr ⟨rfl, offCurve,
      KeyText.decode_eq_ok_iff.mpr ⟨Role.server.byte, KeyText.claimed_byte .server, rfl⟩, rfl⟩
  have hpublic : (Call.ofPublicKey .server
      (.literal (Envelope.write (Role.server.byte :: offCurve.bytes)))).made
      SeedText.publishedScheme [pair, pair] = some (publicOnly .server offCurve) := by
    rw [Call.made, Given.text, Option.bind_some, hkey]
    rfl
  rw [run, sampleCalls, List.foldl_cons, step_of_made hgenerated, List.nil_append, List.foldl_cons,
    step_of_made hseed, List.singleton_append, List.foldl_cons, step_of_made hpublic]
  rfl

/-- The pair that was generated and made again gives away its seed, and the one that is no point of
the curve its public key, but no seed. -/
theorem held_pairs_round_trip_sample :
    full .user ⟨SeedText.publishedUserSecret, rfl⟩ ∈ run SeedText.publishedScheme sampleCalls ∧
    (∃ text, (full .user ⟨SeedText.publishedUserSecret, rfl⟩).seed SeedText.publishedScheme =
        .ok text ∧
      ofSeed SeedText.publishedScheme text =
        .ok (full .user ⟨SeedText.publishedUserSecret, rfl⟩)) ∧
    publicOnly .server offCurve ∈ run SeedText.publishedScheme sampleCalls ∧
    (∃ text, (publicOnly .server offCurve).publicKey SeedText.publishedScheme = .ok text ∧
      text.length = 56 ∧ ofAnyPublicKey text = .ok (publicOnly .server offCurve)) ∧
    (publicOnly .server offCurve).seed SeedText.publishedScheme = .error .noSeed := by
  have hfull : full .user ⟨SeedText.publishedUserSecret, rfl⟩ ∈
      run SeedText.publishedScheme sampleCalls := by
    rw [run_sampleCalls]
    exact List.mem_cons_self
  have hpublic : publicOnly .server offCurve ∈ run SeedText.publishedScheme sampleCalls := by
    rw [run_sampleCalls]
    simp
  obtain ⟨-, -, -, htexts⟩ := held_pairs_round_trip _ sampleCalls _ hfull
  obtain ⟨-, ⟨text, htext, hlength, -, -, -, hmade⟩, hrefused, -⟩ :=
    held_pairs_round_trip _ sampleCalls _ hpublic
  obtain ⟨seedText, -, -, hseed, -, -, hagain, -⟩ := htexts rfl
  exact ⟨hfull, ⟨seedText, hseed, hagain⟩, hpublic, ⟨text, htext, hlength, hmade⟩,
    (hrefused rfl).1⟩

end RoleKey
