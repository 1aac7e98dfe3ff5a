import RoleKey.Proofs.GeneratedOutput

/-!
Pairs that are generated one after the other from one source.

A call names a role, and `run` makes calls in sequence against a source, each of them against what
the one before has left. `Ruling` lists what can come of one call, with the source behind it: a
refused call and one that finds too few bytes leave the source as it was, and one that makes a pair
takes the next secret off it (`ruling_generate`). Over a run the pairs that are made have their
secrets one behind the other, from the first byte of the source on (`exists_secrets_run`). The
secret at each place is therefore a chunk of the source of its own, since chunks that follow each
other do not overlap (`drop_take_flatMap_bytes`).
-/

set_option autoImplicit false
set_option relaxedAutoImplicit false

namespace RoleKey

/-- The byte string at a place in a sequence of byte strings of one length. -/
theorem drop_take_flatMap_bytes {n : ℕ} {chunks : List (Octets n)} {place : ℕ} {chunk : Octets n}
    (h : chunks[place]? = some chunk) (rest : Bytes) :
    ((chunks.flatMap Octets.bytes ++ rest).drop (n * place)).take n = chunk.bytes := by
  induction chunks generalizing place with
  | nil => simp at h
  | cons first others ih =>
    rw [List.flatMap_cons, List.append_assoc]
    cases place with
    | zero =>
      obtain rfl : first = chunk := by simpa using h
      rw [Nat.mul_zero, List.drop_zero, List.take_left' first.length_eq]
    | succ place =>
      rw [List.getElem?_cons_succ] at h
      rw [Nat.mul_succ, Nat.add_comm, ← List.drop_drop, List.drop_left' first.length_eq, ih h]

namespace RandomSource

/-- A draw of more bytes than are left takes none. -/
theorem draw_of_length_lt {source : RandomSource} {n : ℕ} (h : source.bytes.length < n) :
    source.draw n = (.error source.complaint, source) := by
  have hfew : (source.bytes.take n).length ≠ n := by
    rw [List.length_take]
    omega
  rw [draw, Octets.ofBytes?, dif_neg hfew]

/-- A source that has enough bytes has the drawn ones in front. -/
theorem exists_bytes_eq_append {source : RandomSource} {n : ℕ} (h : n ≤ source.bytes.length) :
    ∃ (drawn : Octets n) (rest : Bytes), source.bytes = drawn.bytes ++ rest :=
  ⟨⟨source.bytes.take n, List.length_take_of_le h⟩, source.bytes.drop n,
    (List.take_append_drop n source.bytes).symm⟩

end RandomSource

namespace Generation

/-! ### Calls -/

/-- A call that generates a pair. The roles that sign have a call each, and one call takes any
role. -/
inductive Call where
  | account
  | user
  | cluster
  | server
  | operator
  | pair (role : Role)

/-- The role that a call asks for. -/
def Call.role : Call → Role
  | account => .account
  | user => .user
  | cluster => .cluster
  | server => .server
  | operator => .operator
  | pair role => role

/-- The outcomes of calls one after the other, and what the source has left. -/
def run : List Call → RandomSource → List (Except KeyError KeyPair) × RandomSource
  | [], source => ([], source)
  | call :: calls, source =>
    let (outcome, rest) := KeyPair.generate call.role source
    let (outcomes, left) := run calls rest
    (outcome :: outcomes, left)

/-- The pairs among the outcomes, in order. -/
def made (outcomes : List (Except KeyError KeyPair)) : List KeyPair :=
  outcomes.filterMap Except.toOption

/-- The roles asked for that sign, in order. -/
def signingRoles (calls : List Call) : List Role := (calls.map Call.role).filter Role.isSigning

@[simp] theorem run_cons (call : Call) (calls : List Call) (source : RandomSource) :
    run (call :: calls) source =
      ((KeyPair.generate call.role source).1 ::
          (run calls (KeyPair.generate call.role source).2).1,
        (run calls (KeyPair.generate call.role source).2).2) := rfl

theorem length_run (calls : List Call) (source : RandomSource) :
    (run calls source).1.length = calls.length := by
  induction calls generalizing source with
  | nil => rfl
  | cons call calls ih => rw [run_cons, List.length_cons, List.length_cons, ih]

/-- The outcome at a place is that of the call there, against what the calls before have left. -/
theorem getElem?_run {calls : List Call} {place : ℕ} {call : Call}
    (h : calls[place]? = some call) (source : RandomSource) :
    (run calls source).1[place]? =
        some (KeyPair.generate call.role (run (calls.take place) source).2).1 ∧
      (run (calls.take (place + 1)) source).2 =
        (KeyPair.generate call.role (run (calls.take place) source).2).2 := by
  induction calls generalizing place source with
  | nil => simp at h
  | cons first calls ih =>
    cases place with
    | zero =>
      obtain rfl : first = call := by simpa using h
      exact ⟨rfl, rfl⟩
    | succ place =>
      rw [List.getElem?_cons_succ] at h
      exact ih h (KeyPair.generate first.role source).2

/-! ### One call -/

/-- What can come of one call, and the source behind it. -/
inductive Ruling (role : Role) (source : RandomSource) :
    Except KeyError KeyPair → RandomSource → Prop
  /-- A role that does not sign. -/
  | refused (hrole : role.isSigning = false) :
      Ruling role source (.error .invalidPrefixByte) source
  /-- The next bytes of the source are the secret of the pair. -/
  | made (secret : Secret) (rest : Bytes) (hrole : role.isSigning = true)
      (hbytes : source.bytes = secret.bytes ++ rest) :
      Ruling role source (KeyPair.ofSecret role secret) ⟨rest, source.complaint⟩
  /-- Too few bytes are left, and the source says so. -/
  | exhausted (hrole : role.isSigning = true) (hbytes : source.bytes.length < 32) :
      Ruling role source (.error (.randomSource source.complaint)) source

theorem ruling_generate (role : Role) (source : RandomSource) :
    Ruling role source (KeyPair.generate role source).1 (KeyPair.generate role source).2 := by
  cases hrole : role.isSigning with
  | false =>
    have hgenerate : KeyPair.generate role source = (.error .invalidPrefixByte, source) := by
      rw [KeyPair.generate, hrole]
      rfl
    rw [hgenerate]
    exact .refused hrole
  | true =>
    rcases Nat.lt_or_ge source.bytes.length 32 with hfew | henough
    · have hgenerate : KeyPair.generate role source =
          (.error (.randomSource source.complaint), source) := by
        rw [KeyPair.generate, if_pos hrole, RandomSource.draw_of_length_lt hfew]
      rw [hgenerate]
      exact .exhausted hrole hfew
    · obtain ⟨secret, rest, hbytes⟩ := RandomSource.exists_bytes_eq_append henough
      have hdraw : source.draw secretLength = (.ok secret, ⟨rest, source.complaint⟩) := by
        have happend := RandomSource.draw_append secret rest source.complaint
        rwa [← hbytes] at happend
      have hgenerate : KeyPair.generate role source =
          (KeyPair.ofSecret role secret, ⟨rest, source.complaint⟩) := by
        rw [KeyPair.generate, if_pos hrole, hdraw]
      rw [hgenerate]
      exact .made secret rest hrole hbytes

/-! ### Runs of calls -/

theorem signingRoles_cons (call : Call) (calls : List Call) :
    signingRoles (call :: calls) =
      if call.role.isSigning then call.role :: signingRoles calls else signingRoles calls := by
  rw [signingRoles, List.map_cons, List.filter_cons, signingRoles]

/-- The pairs that a run makes have the first roles that sign, and their secrets stand one behind
the other in front of what the source has left. There are as many as the roles that sign and the
secrets that the source holds allow. -/
theorem exists_secrets_run (calls : List Call) (source : RandomSource) :
    ∃ secrets : List Secret,
      made (run calls source).1 = List.zipWith KeyPair.full (signingRoles calls) secrets ∧
      secrets.length = min (signingRoles calls).length (source.bytes.length / 32) ∧
      source.bytes = secrets.flatMap Octets.bytes ++ (run calls source).2.bytes := by
  -- On the calls, for whatever source: each call leaves another one to those behind it.
  induction calls generalizing source with
  | nil => exact ⟨[], rfl, by simp [signingRoles], rfl⟩
  | cons call calls ih =>
    have hruling := ruling_generate call.role source
    rw [run_cons, signingRoles_cons]
    generalize KeyPair.generate call.role source = answer at hruling ⊢
    obtain ⟨outcome, rest⟩ := answer
    dsimp only at hruling ⊢
    cases hruling with
    | refused hrole =>
      rw [if_neg (by rw [hrole]; exact Bool.false_ne_true)]
      exact ih source
    | made secret rest hrole hbytes =>
      obtain ⟨secrets, hmade, hlength, hrest⟩ := ih ⟨rest, source.complaint⟩
      have hpair : KeyPair.ofSecret call.role secret = .ok (.full call.role secret) :=
        KeyPair.ofSecret_eq_ok_iff.mpr ⟨hrole, rfl⟩
      refine ⟨secret :: secrets, ?_, ?_, ?_⟩
      · rw [if_pos hrole, hpair, List.zipWith_cons_cons, ← hmade]
        rfl
      · have hcount : source.bytes.length = 32 + rest.length := by
          rw [hbytes, List.length_append, secret.length_eq]
        dsimp only at hlength
        rw [if_pos hrole, List.length_cons, List.length_cons, hlength, hcount]
        omega
      · rw [List.flatMap_cons, List.append_assoc, ← hrest]
        exact hbytes
    | exhausted hrole hfew =>
      obtain ⟨secrets, hmade, hlength, hrest⟩ := ih source
      have hnone : source.bytes.length / 32 = 0 := Nat.div_eq_of_lt hfew
      obtain rfl : secrets = [] := by
        rw [hnone, Nat.min_zero] at hlength
        exact List.eq_nil_of_length_eq_zero hlength
      refine ⟨[], ?_, ?_, hrest⟩
      · rw [List.zipWith_nil_right] at hmade ⊢
        exact hmade
      · rw [hnone, Nat.min_zero, List.length_nil]

/-- In a run of calls against one source every call is refused for its role, makes the pair of the
next 32 bytes, or finds fewer left; only in the second case is anything taken off the source. So the
pairs that are made have, in order, the consecutive chunks of 32 bytes of the source as their
secrets, each of them one chunk and none a chunk that another one has. -/
theorem secrets_are_consecutive_chunks (calls : List Call) (source : RandomSource) :
    (run calls source).1.length = calls.length ∧
    (∀ place call, calls[place]? = some call →
      ∃ outcome, (run calls source).1[place]? = some outcome ∧
        Ruling call.role (run (calls.take place) source).2 outcome
          (run (calls.take (place + 1)) source).2) ∧
    ∃ secrets : List Secret,
      made (run calls source).1 = List.zipWith KeyPair.full (signingRoles calls) secrets ∧
      secrets.length = min (signingRoles calls).length (source.bytes.length / 32) ∧
      source.bytes = secrets.flatMap Octets.bytes ++ (run calls source).2.bytes ∧
      ∀ place secret, secrets[place]? = some secret →
        secret.bytes = (source.bytes.drop (32 * place)).take 32 := by
  refine ⟨length_run calls source, fun place call hcall ↦ ?_, ?_⟩
  · obtain ⟨houtcome, hleft⟩ := getElem?_run hcall source
    exact ⟨_, houtcome, hleft ▸ ruling_generate call.role _⟩
  · obtain ⟨secrets, hmade, hlength, hbytes⟩ := exists_secrets_run calls source
    refine ⟨secrets, hmade, hlength, hbytes, fun place secret hsecret ↦ ?_⟩
    rw [hbytes]
    exact (drop_take_flatMap_bytes hsecret _).symm

/-- Calls for a user, for a curve key, which is refused, and for an operator and a server. -/
def fourCalls : List Call := [.user, .pair .curve, .operator, .server]

/-- A source with two secrets and six bytes more. -/
def shortSource : RandomSource :=
  ⟨List.replicate 32 1 ++ List.replicate 32 2 ++ List.replicate 6 3, "short read"⟩

/-- The user and the operator take the two secrets, and the server finds six bytes left. -/
theorem secrets_are_consecutive_chunks_four_calls :
    made (run fourCalls shortSource).1 =
      [.full .user ⟨List.replicate 32 1, rfl⟩, .full .operator ⟨List.replicate 32 2, rfl⟩] ∧
    fourCalls[1]? = some (.pair .curve) ∧
    (run fourCalls shortSource).1[1]? = some (.error .invalidPrefixByte) ∧
    fourCalls[3]? = some .server ∧
    (run fourCalls shortSource).1[3]? = some (.error (.randomSource "short read")) ∧
    (run fourCalls shortSource).2 = ⟨List.replicate 6 3, "short read"⟩ := by
  obtain ⟨-, houtcome, secrets, hmade, hlength, -, hchunk⟩ :=
    secrets_are_consecutive_chunks fourCalls shortSource
  have hleft : (run (fourCalls.take 3) shortSource).2 = ⟨List.replicate 6 3, "short read"⟩ := rfl
  refine ⟨?_, rfl, ?_, rfl, ?_, ?_⟩
  · obtain ⟨first, second, rfl⟩ := List.length_eq_two.mp hlength
    have hfirst : first = ⟨List.replicate 32 1, rfl⟩ := Octets.ext (hchunk 0 first rfl)
    have hsecond : second = ⟨List.replicate 32 2, rfl⟩ := Octets.ext (hchunk 1 second rfl)
    rw [hmade, hfirst, hsecond]
    rfl
  · obtain ⟨outcome, hget, hruling⟩ := houtcome 1 (.pair .curve) rfl
    rw [hget]
    cases hruling with
    | refused => rfl
    | made _ _ hrole => exact absurd hrole (by decide)
    | exhausted hrole => exact absurd hrole (by decide)
  · obtain ⟨outcome, hget, hruling⟩ := houtcome 3 .server rfl
    rw [hleft] at hruling
    rw [hget]
    generalize (run (fourCalls.take 4) shortSource).2 = rest at hruling
    cases hruling with
    | refused hrole => exact absurd hrole (by decide)
    | made secret rest _ hdrawn =>
      have hcount : 6 = 32 + rest.length := by
        have hsame := congrArg List.length hdrawn
        rwa [List.length_append, secret.length_eq] at hsame
      omega
    | exhausted => rfl
  · rfl

end Generation

end RoleKey
