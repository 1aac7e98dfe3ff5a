import RoleKey.Proofs.PairRoundTrip
import RoleKey.Proofs.CommandOutcomes

/-!
What a run with a seed depends on.

The class of a seed is why it is not read, or the role that it embeds and whether a pair is made of
it. The class says what making a pair comes to (`SeedClass.map_role_ofSeed`) and which events there
are on the way (`SeedClass.seedEvents_eq`). Of a command that is given a seed file, the events and
the failure follow from the class alone (`publicKey_events`, `publicKey_failure`), or from the class
and the number of bytes of the file that is signed (`sign_events`, `sign_failure`).
-/

set_option autoImplicit false
set_option relaxedAutoImplicit false

namespace RoleKey

open Diagnostics (Event)

/-- Why a run fails, if it does. -/
def Run.failure? {α : Type} (run : Run α) : Option Failure :=
  match run.result with
  | .ok _ => none
  | .error f => some f

theorem Run.failure?_of_ok {α : Type} {run : Run α} {a : α} (h : run.result = .ok a) :
    run.failure? = none := by
  rw [failure?, h]

theorem Run.failure?_of_error {α : Type} {run : Run α} {f : Failure} (h : run.result = .error f) :
    run.failure? = some f := by
  rw [failure?, h]

/-! ### Classes of seeds -/

/-- What may be told of the text of a seed. -/
inductive SeedClass where
  /-- It is not read, and why. -/
  | unreadable (e : KeyError)
  /-- It is read: the role that it embeds, and whether a pair is made of it. -/
  | readable (role : Role) (accepted : Bool)
deriving DecidableEq

namespace SeedClass

/-- The class of a text. -/
def ofText (S : Scheme) (text : String) : SeedClass :=
  match SeedText.decode text with
  | .error e => unreadable e
  | .ok (role, _) => readable role (KeyPair.ofSeed S text).toOption.isSome

/-- The events of reading a seed of a class. -/
def events : SeedClass → List Event
  | unreadable e => [Command.pairEvent "seed rejected" [Command.errorField e]]
  | readable role true => [Command.pairEvent "loaded key pair from seed" [Command.roleField role]]
  | readable role false =>
    if role.isSigning then []
    else [Command.pairEvent "seed does not hold a signing key" [Command.roleField role]]

/-- The role of the pair that is made of a seed of a class, or why none is. -/
def outcome : SeedClass → Except KeyError Role
  | unreadable e => .error e
  | readable role true => .ok role
  | readable role false => .error (if role.isSigning then .invalidSeed else .invalidPrefixByte)

variable {S : Scheme} {text : String}

theorem ofText_of_error {e : KeyError} (h : SeedText.decode text = .error e) :
    ofText S text = unreadable e := by
  rw [ofText, h]

theorem ofText_of_ok {role : Role} {bytes : Bytes} (h : SeedText.decode text = .ok (role, bytes)) :
    ofText S text = readable role (KeyPair.ofSeed S text).toOption.isSome := by
  rw [ofText, h]

/-- Making a pair of a seed comes to what its class says. -/
theorem map_role_ofSeed (S : Scheme) (text : String) :
    (KeyPair.ofSeed S text).map KeyPair.role = (ofText S text).outcome := by
  cases hread : SeedText.decode text with
  | error e =>
    rw [ofText_of_error hread, KeyPair.ofSeed_of_decode_error hread]
    rfl
  | ok seed =>
    obtain ⟨role, bytes⟩ := seed
    obtain ⟨material, rfl⟩ := SeedText.exists_material_of_decode hread
    rw [ofText_of_ok hread, KeyPair.ofSeed_of_decode hread]
    by_cases hsigning : role.isSigning = true
    · rw [if_pos hsigning]
      by_cases hhalf : material.last = S.publicOf material.first
      · rw [if_pos hhalf]
        rfl
      · rw [if_neg hhalf]
        change _ = Except.error (if role.isSigning = true then _ else _)
        rw [if_pos hsigning]
        rfl
    · rw [if_neg hsigning]
      change _ = Except.error (if role.isSigning = true then _ else _)
      rw [if_neg hsigning]
      rfl

/-- The events of reading a seed depend on its class alone. -/
theorem seedEvents_eq (S : Scheme) (text : String) :
    Command.seedEvents S text = (ofText S text).events := by
  cases hread : SeedText.decode text with
  | error e => rw [ofText_of_error hread, Command.seedEvents, hread, events]
  | ok seed =>
    obtain ⟨role, bytes⟩ := seed
    rw [ofText_of_ok hread, Command.seedEvents, hread]
    dsimp only
    cases hmade : KeyPair.ofSeed S text with
    | error e => rfl
    | ok pair =>
      -- What makes a pair has read the same role, and the role signs.
      obtain ⟨_, _, hsigning, hread', -⟩ := KeyPair.ofSeed_eq_ok_iff.mp hmade
      obtain ⟨rfl, -⟩ := Prod.mk.inj (Except.ok.inj (hread.symm.trans hread'))
      rw [if_pos hsigning]
      rfl

end SeedClass

namespace Command

variable {S : Scheme} {files : Files} {inkey data text : String}

/-! ### One run -/

theorem loadSeed_eq (hseed : seedIn files inkey = .ok text) :
    loadSeed S files inkey =
      ⟨Failure.ofKey (some (.useSeedIn inkey)) (KeyPair.ofSeed S text),
        (SeedClass.ofText S text).events⟩ := by
  rw [← SeedClass.seedEvents_eq, loadSeed, hseed]
  rfl

/-- Showing the public key has no event but those of reading the seed. -/
theorem publicKey_events (hseed : seedIn files inkey = .ok text) :
    (publicKey S files inkey).events = (SeedClass.ofText S text).events := by
  rw [publicKey, Run.events_bind, loadSeed_eq hseed]
  dsimp only
  split
  · rw [Run.of, List.append_nil]
  · rfl

/-- Why showing the public key of a seed of a class fails, if it does. -/
def publicKeyFailure (inkey : String) (told : SeedClass) : Option Failure :=
  match told.outcome with
  | .error e => some ⟨some (.useSeedIn inkey), .key e⟩
  | .ok _ => none

theorem publicKey_failure (hseed : seedIn files inkey = .ok text) :
    (publicKey S files inkey).failure? = publicKeyFailure inkey (SeedClass.ofText S text) := by
  rw [publicKeyFailure, ← SeedClass.map_role_ofSeed]
  cases hmade : KeyPair.ofSeed S text with
  | error e =>
    apply Run.failure?_of_error
    rw [publicKey, Run.result_bind, loadSeed_eq hseed, hmade]
    rfl
  | ok pair =>
    obtain ⟨role, secret, hsigning, -, rfl⟩ := KeyPair.ofSeed_eq_ok_iff.mp hmade
    obtain ⟨key, hkey, -⟩ := KeyPair.publicKey_tells S (.full role secret) hsigning
    exact Run.failure?_of_ok
      (publicKey_result_eq_ok_iff.mpr ⟨text, _, hseed, hmade, hkey⟩)

/-- The number of bytes behind a path. -/
def byteCount (files : Files) (path : String) : Except ReadFault ℕ :=
  (files.read path).map List.length

/-- The events of signing a file of so many bytes with a seed of a class. -/
def signEvents (told : SeedClass) (size : Except ReadFault ℕ) : List Event :=
  match told.outcome, size with
  | .ok role, .ok size => told.events ++ [fileSigned size role]
  | _, _ => told.events

/-- Why signing a file of so many bytes with a seed of a class fails, if it does. -/
def signFailure (inkey data : String) (told : SeedClass) (size : Except ReadFault ℕ) :
    Option Failure :=
  match told.outcome, size with
  | .error e, _ => some ⟨some (.useSeedIn inkey), .key e⟩
  | .ok _, .error fault => some ⟨some (.readFile data), .file fault⟩
  | .ok _, .ok _ => none

/-- Signing has the events of reading the seed, and one more if it comes to a signature. -/
theorem sign_events (hseed : seedIn files inkey = .ok text) (data : String) :
    (sign S files inkey data).events =
      signEvents (SeedClass.ofText S text) (byteCount files data) := by
  unfold signEvents byteCount
  rw [← SeedClass.map_role_ofSeed, sign, Run.events_bind, loadSeed_eq hseed]
  cases hmade : KeyPair.ofSeed S text with
  | error e => rfl
  | ok pair =>
    obtain ⟨role, secret, -, -, rfl⟩ := KeyPair.ofSeed_eq_ok_iff.mp hmade
    cases hread : files.read data with
    | error fault => exact List.append_nil _
    | ok content => rfl

theorem sign_failure (hseed : seedIn files inkey = .ok text) (data : String) :
    (sign S files inkey data).failure? =
      signFailure inkey data (SeedClass.ofText S text) (byteCount files data) := by
  unfold signFailure byteCount
  rw [← SeedClass.map_role_ofSeed]
  cases hmade : KeyPair.ofSeed S text with
  | error e =>
    apply Run.failure?_of_error
    rw [sign, Run.result_bind, loadSeed_eq hseed, hmade]
    rfl
  | ok pair =>
    obtain ⟨role, secret, -, -, rfl⟩ := KeyPair.ofSeed_eq_ok_iff.mp hmade
    cases hread : files.read data with
    | error fault =>
      apply Run.failure?_of_error
      rw [sign, Run.result_bind, loadSeed_eq hseed, hmade]
      change (Run.of (Failure.ofFile (.readFile data) (files.read data)) >>= _).result = _
      rw [hread]
      rfl
    | ok content =>
      exact Run.failure?_of_ok
        (sign_result_eq_ok_iff.mpr ⟨text, _, content, _, hseed, hmade, hread, rfl, rfl⟩)

end Command

end RoleKey
