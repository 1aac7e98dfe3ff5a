import RoleKey.Program
import RoleKey.Proofs.DiagnosticsErasure
import RoleKey.Proofs.FilterReading
import RoleKey.Proofs.SeedSecrecy

/-!
Diagnostics have no part in what a command comes to.

Of the parser of command lines and of the reader of filters only their laws are used. Runs that
perform the same request exit and print alike, whatever is let through of their events
(`exitCode_stdout_of_request_eq`); all that is needed of the reader there is that it returns on the
texts of the two runs. Without a level on the command line or in the environment, and without a
filter there, no event is written at all: such a run has the level `warn`
(`Parser.Lawful.logLevel_of_noOption`), which lets through what matters at least that much, while
the events of all commands matter less (`quiet_perform`). By the parser of this program, lines
whose words are the same without the options on diagnostics make the same request, where the
environments name the same seed file (`request_eq_of_withoutDiagnostics_eq`).

Scope. That the reader of filters returns is a law of the parameter and not of the reader that the
program runs with, which gives up on some texts that begin with blanks. What holds of that one is
`run_of_withoutDiagnostics_eq` and `run_eventLines_eq_nil`.
-/

set_option autoImplicit false
set_option relaxedAutoImplicit false

namespace RoleKey

open Diagnostics (Event)

/-- The level of a line that gives none is `warn`, if the environment gives none either. -/
theorem CommandLine.Parser.Lawful.logLevel_of_noOption {P : Parser} (hP : P.Lawful)
    {env : Environment} {words : List String} {i : Invocation}
    (hnone : NoOption "log-level" words) (hunset : env.logLevel = none)
    (hread : P.read env words = .ok i) : i.logLevel = "warn" := by
  obtain ⟨m, hparse, hinvocation⟩ := bind_eq_ok_iff.mp hread
  have hdefault : m.value? .logLevel = some "warn" :=
    hP.defaults env words m .logLevel "log-level" hparse rfl hnone hunset
  have hlevel := (Matches.invocation_eq_ok_iff.mp hinvocation).2.1
  rw [Matches.text_of_value? hdefault] at hlevel
  exact (Except.ok.inj hlevel).symm

/-! ### The events of commands -/

/-- Whether all events of a run matter less than a warning. -/
def Run.Quiet {α : Type} (x : Run α) : Prop :=
  ∀ e ∈ x.events, Diagnostics.Level.warn.rank < e.level.rank

namespace Run.Quiet

variable {α β : Type}

theorem pure (a : α) : Quiet (Pure.pure a : Run α) := fun _ he ↦ absurd he List.not_mem_nil

theorem of (outcome : Except Failure α) : Quiet (Run.of outcome) :=
  fun _ he ↦ absurd he List.not_mem_nil

theorem emit {e : Event} (h : Diagnostics.Level.warn.rank < e.level.rank) : Quiet (Run.emit e) :=
  fun _ he ↦ List.mem_singleton.mp he ▸ h

theorem bind {x : Run α} {f : α → Run β} (hx : Quiet x) (hf : ∀ a, Quiet (f a)) :
    Quiet (x >>= f) := by
  intro e he
  rw [events_bind] at he
  split at he
  · exact (List.mem_append.mp he).elim (hx e) (hf _ e)
  · exact hx e he

end Run.Quiet

namespace Command

open Run (Quiet)

theorem rank_warn_lt_debug :
    Diagnostics.Level.warn.rank < Diagnostics.Level.debug.rank := by decide

theorem rank_warn_lt_info : Diagnostics.Level.warn.rank < Diagnostics.Level.info.rank := by decide

theorem quiet_seedEvents (S : Scheme) {α : Type} (outcome : Except Failure α) (text : String) :
    Quiet ⟨outcome, seedEvents S text⟩ := by
  intro e he
  unfold seedEvents at he
  split at he
  · exact List.mem_singleton.mp he ▸ rank_warn_lt_debug
  · split at he
    · split at he
      · exact List.mem_singleton.mp he ▸ rank_warn_lt_debug
      · exact absurd he List.not_mem_nil
    · exact List.mem_singleton.mp he ▸ rank_warn_lt_debug

theorem quiet_anyPublicKeyEvents {α : Type} (outcome : Except Failure α) (text : String) :
    Quiet ⟨outcome, anyPublicKeyEvents text⟩ := by
  intro e he
  dsimp only at he
  unfold anyPublicKeyEvents at he
  split at he
  · split at he
    · unfold publicKeyEvents at he
      split at he
      · exact List.mem_singleton.mp he ▸ rank_warn_lt_debug
      · exact absurd he List.not_mem_nil
    · exact absurd he List.not_mem_nil
  · exact absurd he List.not_mem_nil

theorem quiet_loadSeed (S : Scheme) (files : Files) (path : String) :
    Quiet (loadSeed S files path) :=
  .bind (.of _) fun _ ↦ quiet_seedEvents S _ _

theorem quiet_parseKey (S : Scheme) (text : String) : Quiet (parseKey S text) := by
  unfold parseKey
  split
  · exact quiet_seedEvents S _ _
  · exact quiet_anyPublicKeyEvents _ _

theorem quiet_publicKey (S : Scheme) (files : Files) (inkey : String) :
    Quiet (publicKey S files inkey) :=
  .bind (quiet_loadSeed S files inkey) fun _ ↦ .of _

theorem quiet_sign (S : Scheme) (files : Files) (inkey data : String) :
    Quiet (sign S files inkey data) :=
  .bind (quiet_loadSeed S files inkey) fun _ ↦ .bind (.of _) fun _ ↦ .bind (.of _) fun _ ↦
    .bind (.emit (rank_warn_lt_debug)) fun _ ↦ .pure _

theorem quiet_verify (S : Scheme) (files : Files) (key signature data : String) :
    Quiet (verify S files key signature data) :=
  .bind (.of _) fun _ ↦ .bind (quiet_parseKey S _) fun _ ↦ .bind (.of _) fun _ ↦
    .bind (.of _) fun _ ↦ .bind (.of _) fun _ ↦ .bind (.of _) fun _ ↦ .pure _

theorem quiet_generate (S : Scheme) (role : Role) (json : Bool) (source : RandomSource) :
    Quiet (generate S role json source).1 := by
  have hshow (pair : KeyPair) : Quiet (showGenerated S role json pair) :=
    .bind (.emit (rank_warn_lt_debug)) fun _ ↦ .bind (.of _) fun _ ↦ .bind (.of _) fun _ ↦
      .bind (.emit (rank_warn_lt_info)) fun _ ↦ .pure _
  exact .bind (.of _) hshow

end Command

namespace Program

open CommandLine (Environment Invocation NoOption Parser Request withoutDiagnostics)
open Diagnostics (Event Filter FilterReader)

/-- The events of every command matter less than a warning. -/
theorem quiet_perform (S : Scheme) (files : Files) (source : RandomSource) (request : Request) :
    (perform S files source request).Quiet := by
  cases request with
  | generate role json => exact Command.quiet_generate S role json source
  | publicKey inkey => exact Command.quiet_publicKey S files inkey
  | sign inkey data => exact Command.quiet_sign S files inkey data
  | verify key signature data => exact Command.quiet_verify S files key signature data
  | inspect value json => exact .pure _
  | version => exact .pure _

/-! ### Runs -/

/-- The texts that may be read as filters. -/
def filterTexts (env : Environment) (logLevel : String) : List String :=
  logLevel :: env.filter.toList

section Runs

variable {P : Parser} {F : FilterReader} {S : Scheme} {env : Environment} {files : Files}
  {source : RandomSource} {words : List String} {i : Invocation}

/-- A filter is chosen if the reader returns on the texts that it may be asked for. -/
theorem exists_chooseFilter {logLevel : String}
    (hreturns : ∀ text ∈ filterTexts env logLevel, F.Returns text) :
    ∃ passes notes, chooseFilter F env logLevel = .ok (passes, notes) := by
  obtain ⟨⟨passes, notes⟩, hlenient⟩ := (hreturns logLevel List.mem_cons_self).lenient
  rw [chooseFilter]
  cases hfilter : env.filter with
  | none => exact ⟨passes, notes, hlenient⟩
  | some text =>
    have hmem : text ∈ filterTexts env logLevel :=
      List.mem_cons_of_mem _ (Option.mem_toList.mpr hfilter)
    obtain ⟨_ | strict, hstrict⟩ := (hreturns text hmem).strict
    · exact ⟨passes, notes, bind_eq_ok_iff.mpr ⟨none, hstrict, hlenient⟩⟩
    · exact ⟨strict, [], bind_eq_ok_iff.mpr ⟨some strict, hstrict, rfl⟩⟩

/-- What a run comes to if its words ask for an invocation and a filter can be chosen. -/
theorem runWith_of_read {passes : Event → Bool} {notes : List String} (S : Scheme) (files : Files)
    (source : RandomSource) (hread : P.read env words = .ok i)
    (hchoose : chooseFilter F env i.logLevel = .ok (passes, notes)) :
    runWith P F S env files source words =
      .ran i.logFormat notes ((perform S files source i.request).events.filter passes)
        (perform S files source i.request).result := by
  rw [runWith, hread]
  dsimp only
  rw [hchoose]

/-- A run is the same with the reader that always returns, if the reader returns on its texts. -/
theorem runWith_steady (hread : P.read env words = .ok i)
    (hreturns : ∀ text ∈ filterTexts env i.logLevel, F.Returns text) :
    runWith P F.steady S env files source words = runWith P F S env files source words := by
  have hchoose : chooseFilter F.steady env i.logLevel = chooseFilter F env i.logLevel := by
    have hlevel := (hreturns i.logLevel List.mem_cons_self).steady_eq.2
    rw [chooseFilter, chooseFilter, hlevel]
    cases hfilter : env.filter with
    | none => rfl
    | some text =>
      have hmem : text ∈ filterTexts env i.logLevel :=
        List.mem_cons_of_mem _ (Option.mem_toList.mpr hfilter)
      dsimp only
      rw [(hreturns text hmem).steady_eq.1]
  rw [runWith, runWith, hread]
  dsimp only
  rw [hchoose]

theorem run_eq_steady (hread : CommandLine.read env words = .ok i)
    (hreturns : ∀ text ∈ filterTexts env i.logLevel, Filter.reader.Returns text) :
    run S env files source words =
      runWith CommandLine.scanner Filter.reader.steady S env files source words :=
  (runWith_steady hread hreturns).symm

/-- The random source has no part in a run that does not generate. -/
theorem perform_of_ne_generate {request : Request} (h : request.verb ≠ .generate)
    (S : Scheme) (files : Files) (source source' : RandomSource) :
    perform S files source request = perform S files source' request := by
  cases request <;> first | rfl | exact absurd rfl h

/-- Runs that perform the same request exit with the same code and print the same, if the reader of
filters returns on their texts. -/
theorem exitCode_stdout_of_request_eq {env' : Environment} {source' : RandomSource}
    {words' : List String} {i' : Invocation} (S : Scheme) (files : Files)
    (hread : P.read env words = .ok i) (hread' : P.read env' words' = .ok i')
    (hreturns : ∀ text ∈ filterTexts env i.logLevel, F.Returns text)
    (hreturns' : ∀ text ∈ filterTexts env' i'.logLevel, F.Returns text)
    (hsame : i.request = i'.request) (hsource : i.request.verb = .generate → source = source') :
    (runWith P F S env files source words).exitCode =
        (runWith P F S env' files source' words').exitCode ∧
      (runWith P F S env files source words).stdout =
        (runWith P F S env' files source' words').stdout := by
  have hperform : perform S files source i.request = perform S files source' i'.request := by
    rw [← hsame]
    by_cases hverb : i.request.verb = .generate
    · rw [hsource hverb]
    · exact perform_of_ne_generate hverb S files source source'
  obtain ⟨passes, notes, hchoose⟩ := exists_chooseFilter hreturns
  obtain ⟨passes', notes', hchoose'⟩ := exists_chooseFilter hreturns'
  rw [runWith_of_read S files source hread hchoose, runWith_of_read S files source' hread' hchoose',
    hperform]
  cases (perform S files source' i'.request).result with
  | ok text => exact ⟨rfl, rfl⟩
  | error failure => exact ⟨rfl, rfl⟩

/-- A run that does not succeed prints nothing. -/
theorem stdout_of_exitCode_eq_one {outcome : Outcome} (h : outcome.exitCode = 1) :
    outcome.stdout = "" := by
  rcases outcome with (_ | _ | _) | _ | ⟨_, _, _, _ | _⟩ <;> first | rfl | cases h

/-- Without a level anywhere and without a filter no event is written. -/
theorem eventLines_eq_nil (hP : P.Lawful) (hF : F.WarnsOnly) (S : Scheme) (files : Files)
    (source : RandomSource) (hlevel : env.logLevel = none) (hfilter : env.filter = none)
    (hnone : NoOption "log-level" words) :
    (runWith P F S env files source words).eventLines = [] := by
  cases hread : P.read env words with
  | error stop =>
    rw [runWith, hread]
    rfl
  | ok i =>
    have hchoice : chooseFilter F env i.logLevel = F.lenient "warn" := by
      rw [chooseFilter, hfilter, hP.logLevel_of_noOption hnone hlevel hread]
    cases hchoose : F.lenient "warn" with
    | error abandonment =>
      rw [runWith, hread]
      dsimp only
      rw [hchoice, hchoose]
      rfl
    | ok choice =>
      obtain ⟨passes, notes⟩ := choice
      have hdropped : (perform S files source i.request).events.filter passes = [] := by
        refine List.filter_eq_nil_iff.mpr fun e he hpasses ↦ ?_
        have hrank := (hF passes notes hchoose e).mp hpasses
        exact absurd (quiet_perform S files source i.request e he) (Nat.not_lt.mpr hrank)
      rw [runWith_of_read S files source hread (hchoice.trans hchoose), hdropped]
      rfl

/-- So it is with the parser and the reader of filters that the program runs with. -/
theorem run_eventLines_eq_nil (S : Scheme) (files : Files) (source : RandomSource)
    (hlevel : env.logLevel = none) (hfilter : env.filter = none)
    (hnone : NoOption "log-level" words) : (run S env files source words).eventLines = [] :=
  eventLines_eq_nil CommandLine.scanner_lawful Filter.reader_warnsOnly S files source hlevel hfilter
    hnone

/-- By the parser of this program, lines that are the same without the options on diagnostics make
the same request. -/
theorem request_eq_of_withoutDiagnostics_eq {env' : Environment} {words' : List String}
    {i' : Invocation} (hread : CommandLine.read env words = .ok i)
    (hread' : CommandLine.read env' words' = .ok i')
    (hwords : withoutDiagnostics words = withoutDiagnostics words')
    (hinkey : env.inkey = env'.inkey) : i.request = i'.request := by
  have h := CommandLine.read_withoutDiagnostics hread
  have h' := CommandLine.read_withoutDiagnostics hread'
  have henv : env.withoutDiagnostics = env'.withoutDiagnostics := by
    rw [Environment.withoutDiagnostics, Environment.withoutDiagnostics, hinkey]
  rw [henv, hwords] at h
  exact (Invocation.mk.inj (Except.ok.inj (h.symm.trans h'))).1

/-- The program with its own parser and its own reader of filters: runs whose words are the same
without the options on diagnostics exit with the same code and print the same, if no directive of
their filters begins with a blank. -/
theorem run_of_withoutDiagnostics_eq {env' : Environment} {source' : RandomSource}
    {words' : List String} {i' : Invocation} (S : Scheme) (files : Files)
    (hread : CommandLine.read env words = .ok i) (hread' : CommandLine.read env' words' = .ok i')
    (hwords : withoutDiagnostics words = withoutDiagnostics words')
    (hinkey : env.inkey = env'.inkey) (hsource : i.request.verb = .generate → source = source')
    (hbare : ∀ text ∈ filterTexts env i.logLevel ++ filterTexts env' i'.logLevel,
      ∀ piece ∈ Filter.pieces text, ∀ c ∈ piece.head?, Text.isBlank c = false) :
    (run S env files source words).exitCode = (run S env' files source' words').exitCode ∧
      (run S env files source words).stdout = (run S env' files source' words').stdout :=
  exitCode_stdout_of_request_eq S files hread hread'
    (fun text htext ↦ Filter.returns_of_begins_bare (hbare text (List.mem_append_left _ htext)))
    (fun text htext ↦ Filter.returns_of_begins_bare (hbare text (List.mem_append_right _ htext)))
    (request_eq_of_withoutDiagnostics_eq hread hread' hwords hinkey) hsource

/-- Diagnostics do not interfere. Two runs on the same files whose lines make the same request, with
the same random source if they generate, exit with the same code and print the same, whatever is
said on diagnostics. Nothing is printed if the code is 1. If there is no level on the command line
and neither a level nor a filter in the environment, no event is written. By the parser of this
program, the lines make the same request if their words are the same without the options on
diagnostics and the environments name the same seed file. -/
theorem diagnostics_do_not_interfere (hP : P.Lawful) (hF : F.Lawful) (S : Scheme)
    (files : Files) :
    (∀ (env env' : Environment) (source source' : RandomSource) (words words' : List String)
        (i i' : Invocation),
      P.read env words = .ok i → P.read env' words' = .ok i' → i.request = i'.request →
      (i.request.verb = .generate → source = source') →
      (runWith P F S env files source words).exitCode =
          (runWith P F S env' files source' words').exitCode ∧
        (runWith P F S env files source words).stdout =
          (runWith P F S env' files source' words').stdout) ∧
    (∀ (env : Environment) (source : RandomSource) (words : List String),
      (runWith P F S env files source words).exitCode = 1 →
        (runWith P F S env files source words).stdout = "") ∧
    (∀ (env : Environment) (source : RandomSource) (words : List String),
      env.logLevel = none → env.filter = none → NoOption "log-level" words →
        (runWith P F S env files source words).eventLines = []) ∧
    ∀ (env env' : Environment) (words words' : List String) (i i' : Invocation),
      CommandLine.read env words = .ok i → CommandLine.read env' words' = .ok i' →
      withoutDiagnostics words = withoutDiagnostics words' → env.inkey = env'.inkey →
        i.request = i'.request := by
  refine ⟨?_, fun _ _ _ ↦ stdout_of_exitCode_eq_one, fun _ source _ ↦
    eventLines_eq_nil hP hF.warnsOnly S files source, fun _ _ _ _ _ _ ↦
    request_eq_of_withoutDiagnostics_eq⟩
  intro env env' source source' words words' i i' hread hread' hsame hsource
  exact exitCode_stdout_of_request_eq S files hread hread' (fun text _ ↦ hF.returns text)
    (fun text _ ↦ hF.returns text) hsame hsource

/-- Signing with everything let through and without, a seed file that is missing, and signing with
nothing said on diagnostics. -/
theorem diagnostics_do_not_interfere_greeting :
    let files := (Command.seedDirectory Command.endedUserSeed).files
    let source : RandomSource := ⟨[], ""⟩
    let loud : Environment := ⟨some "info", some "pretty", none, some "nk=debug"⟩
    CommandLine.scanner.Lawful ∧ Filter.reader.steady.Lawful ∧
      (run SeedText.publishedScheme loud files source
        ["--log-level", "trace", "sign", "-i", "user.nk", "--log-format=json", "greeting"]).stdout =
      (run SeedText.publishedScheme .empty files ⟨[7], "none"⟩
        ["sign", "-i", "user.nk", "greeting"]).stdout ∧
      (run SeedText.publishedScheme .empty files source ["pubkey", "-i", "missing"]).stdout = "" ∧
      (run SeedText.publishedScheme .empty files source
        ["sign", "-i", "user.nk", "greeting"]).eventLines = [] := by
  intro files source loud
  obtain ⟨hsame, hfailed, hsilent, hrequest⟩ := diagnostics_do_not_interfere
    CommandLine.scanner_lawful Filter.steady_reader_lawful SeedText.publishedScheme files
  have hread : CommandLine.read loud
      ["--log-level", "trace", "sign", "-i", "user.nk", "--log-format=json", "greeting"] =
        .ok ⟨.sign "user.nk" "greeting", "trace", .json⟩ := by rfl
  have hread' : CommandLine.read .empty ["sign", "-i", "user.nk", "greeting"] =
      .ok ⟨.sign "user.nk" "greeting", "warn", .pretty⟩ := by rfl
  have hmissing : CommandLine.read .empty ["pubkey", "-i", "missing"] =
      .ok ⟨.publicKey "missing", "warn", .pretty⟩ := by rfl
  have hlevel : Filter.reader.Returns "trace" := Filter.returns_of_isSolid (by decide)
  have hfilter : Filter.reader.Returns "nk=debug" := Filter.returns_of_isSolid (by decide)
  have hwarn : Filter.reader.Returns "warn" := Filter.returns_of_isSolid (by decide)
  have hloud : ∀ text ∈ filterTexts loud "trace", Filter.reader.Returns text := by
    simp [filterTexts, loud, hlevel, hfilter]
  have hquiet : ∀ text ∈ filterTexts .empty "warn", Filter.reader.Returns text := by
    simp [filterTexts, Environment.empty, hwarn]
  rw [run_eq_steady hread hloud, run_eq_steady hread' hquiet, run_eq_steady hmissing hquiet,
    run_eq_steady hread' hquiet]
  refine ⟨CommandLine.scanner_lawful, Filter.steady_reader_lawful,
    (hsame _ _ source ⟨[7], "none"⟩ _ _ _ _ hread hread'
      (hrequest _ _ _ _ _ _ hread hread' (by decide) rfl) fun hverb ↦ by cases hverb).2,
    hfailed _ _ _ (by rfl), hsilent _ _ _ rfl rfl ?_⟩
  unfold NoOption
  decide

end Runs

end Program

end RoleKey
