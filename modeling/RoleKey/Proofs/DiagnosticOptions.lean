import RoleKey.Proofs.ReadingSteps

/-!
The options on diagnostics, as words.

`withoutDiagnostics` leaves these options and their values out of the words of a command line. It
looks at words alone: at what stands in front of the first `=`, and whether there is one. That is
enough to find them, since an argument on diagnostics is given, at any level, by the words of its
option and by no others (`Level.given?_of_diagnostic`).
-/

set_option autoImplicit false
set_option relaxedAutoImplicit false

namespace RoleKey.CommandLine

/-! ### Leaving options out -/

theorem writesOption_iff {name word : String} (hname : '=' ∉ name.toList) :
    writesOption name word = true ↔ ∃ value, word = optionWord name value := by
  rw [writesOption, beq_iff_eq]
  constructor
  · intro h
    refine ⟨behindEquals word.toList, ?_⟩
    rw [← String.toList_inj]
    calc word.toList
        = (optionWord name none).toList ++ attachedChars (behindEquals word.toList) := by
          rw [← h, takeWhile_append_behindEquals]
      _ = (optionWord name (behindEquals word.toList)).toList := by
          rw [toList_optionWord, toList_optionWord, attachedChars, List.append_nil,
            List.cons_append, List.cons_append]
  · rintro ⟨value, rfl⟩
    have hdash : '=' ∉ '-' :: '-' :: name.toList := by simpa using hname
    have happend : (optionWord name value).toList =
        ('-' :: '-' :: name.toList) ++ attachedChars value := toList_optionWord name value
    rw [happend, takeWhile_append_attachedChars hdash, toList_optionWord]
    simp [attachedChars]

/-- An option has a value attached exactly if there is a `=` in its word. -/
theorem contains_equals_optionWord {name : String} (hname : '=' ∉ name.toList)
    (value : Option String) : (optionWord name value).toList.contains '=' = value.isSome := by
  rw [toList_optionWord]
  cases value <;> simp [attachedChars, hname]

/-- Whether a word writes an option on diagnostics. -/
def isDiagnosticOption (word : String) : Bool :=
  writesOption "log-level" word || writesOption "log-format" word

/-- Leaves out the options on diagnostics and their values. The first word is such a value if one is
awaited; an option awaits its value unless there is a `=` in its word. -/
def dropDiagnostics : Bool → List String → List String
  | _, [] => []
  | true, _ :: words => dropDiagnostics false words
  | false, word :: words =>
    if word = "--" then word :: words
    else if isDiagnosticOption word then dropDiagnostics (!word.toList.contains '=') words
    else word :: dropDiagnostics false words

/-- The words of a command line without the options on diagnostics and their values. Behind the mark
there are no options. -/
def withoutDiagnostics (words : List String) : List String := dropDiagnostics false words

/-- The environment without what it says on diagnostics. -/
def Environment.withoutDiagnostics (env : Environment) : Environment :=
  ⟨none, none, env.inkey, none⟩

theorem Environment.value?_withoutDiagnostics (env : Environment) {a : Arg}
    (ha : a.isDiagnostic = false) : env.withoutDiagnostics.value? a = env.value? a := by
  cases a <;> first | rfl | cases ha

/-- What a command cannot do without is not on diagnostics and has no default. -/
theorem Verb.ordinary_of_mem_required {verb : Verb} {a : Arg} (h : a ∈ verb.required) :
    a.isDiagnostic = false ∧ a.default? = none := by
  revert a
  cases verb <;> decide

/-! ### What the words of these options give -/

theorem Level.name_of_diagnostic {level : Level} {chars : List Char} {option : Switch} {a : Arg}
    {name : String} (h : level.long? chars = some option)
    (hoption : option = .valued a ∨ option = .flag a) (ha : a.diagnosticName? = some name) :
    option = .valued a ∧ chars = name.toList := by
  have hall : ∀ level : Level, ∀ known ∈ level.ownOptions ++ commonOptions, ∀ a,
      (known.2 = .flag a → a.diagnosticName? = none) ∧
        (known.2 = .valued a → a.diagnosticName? = none ∨ a.diagnosticName? = some known.1) := by
    rintro (_ | _ | _ | _ | _ | _ | _) <;> simp [ownOptions, commonOptions, Arg.diagnosticName?]
  obtain ⟨known, hknown, rfl⟩ := Option.map_eq_some_iff.mp h
  have hchars : known.1.toList = chars := by simpa using List.find?_some hknown
  obtain ⟨hflag, hvalued⟩ := hall level known (List.mem_of_find?_eq_some hknown) a
  rcases hoption with hoption | hoption
  · refine ⟨hoption, ?_⟩
    have hname := (hvalued hoption).resolve_left (by simp [ha])
    rw [← hchars, Option.some.inj (ha.symm.trans hname)]
  · exact absurd (ha.symm.trans (hflag hoption)) (Option.some_ne_none _)

theorem Level.long?_of_diagnostic (level : Level) {a : Arg} {name : String}
    (ha : a.diagnosticName? = some name) : level.long? name.toList = some (.valued a) := by
  cases a <;> cases ha <;> rcases level with _ | _ | _ | _ | _ | _ | _ <;> decide

theorem Level.short?_ne_diagnostic {level : Level} {letter : Char} {a : Arg}
    (h : level.short? letter = some (.valued a) ∨ level.short? letter = some (.flag a)) :
    a.diagnosticName? = none := by
  unfold short? at h
  split at h <;> simp at h <;> subst h <;> rfl

/-- An argument on diagnostics is given, at any level, by the words of its option and by no
others. -/
theorem Level.given?_of_diagnostic {level : Level} {word name : String} {value : Option String}
    {a : Arg} (ha : a.diagnosticName? = some name) :
    level.given? word = some (a, value) ↔ word = optionWord name value := by
  constructor
  · intro h
    unfold given? at h
    split at h
    · rename_i chars attached hword
      have hwritten := (Word.of_eq_long_iff.mp hword).1
      split at h
      · rename_i b hoption
        obtain ⟨rfl, rfl⟩ := Prod.mk.inj (Option.some.inj h)
        rw [hwritten, (name_of_diagnostic hoption (Or.inl rfl) ha).2, String.ofList_toList]
      · rename_i b hoption
        obtain ⟨rfl, -⟩ := Prod.mk.inj (Option.some.inj h)
        cases (name_of_diagnostic hoption (Or.inr rfl) ha).1
      · cases h
    · rename_i letter behind hword
      split at h
      · rename_i b hoption
        obtain ⟨rfl, -⟩ := Prod.mk.inj (Option.some.inj h)
        exact absurd (ha.symm.trans (short?_ne_diagnostic (Or.inl hoption)))
          (Option.some_ne_none _)
      · rename_i b hoption
        obtain ⟨rfl, -⟩ := Prod.mk.inj (Option.some.inj h)
        exact absurd (ha.symm.trans (short?_ne_diagnostic (Or.inr hoption)))
          (Option.some_ne_none _)
      · cases h
    · cases h
  · rintro rfl
    have hlong := level.long?_of_diagnostic ha
    have hword : Word.of (optionWord name value) = .long name.toList value := by
      obtain ⟨hname, hne⟩ := name_of_long? hlong
      exact Word.of_eq_long_iff.mpr ⟨by rw [String.ofList_toList], hname, Or.inl hne⟩
    rw [given?, hword]
    dsimp only
    rw [hlong]

/-- A word writes an option on diagnostics exactly if it gives, at any level, an argument on
diagnostics. -/
theorem isDiagnosticOption_iff (level : Level) {word : String} :
    isDiagnosticOption word = true ↔
      ∃ a value, a.isDiagnostic = true ∧ level.given? word = some (a, value) := by
  have hlevel : '=' ∉ "log-level".toList := by decide
  have hformat : '=' ∉ "log-format".toList := by decide
  rw [isDiagnosticOption, Bool.or_eq_true, writesOption_iff hlevel, writesOption_iff hformat]
  constructor
  · rintro (⟨value, hword⟩ | ⟨value, hword⟩)
    · exact ⟨.logLevel, value, rfl, (Level.given?_of_diagnostic rfl).mpr hword⟩
    · exact ⟨.logFormat, value, rfl, (Level.given?_of_diagnostic rfl).mpr hword⟩
  · rintro ⟨a, value, ha, hgiven⟩
    obtain ⟨name, hname⟩ := Option.isSome_iff_exists.mp ha
    have hword := (Level.given?_of_diagnostic hname).mp hgiven
    cases a <;> cases hname
    · exact Or.inl ⟨value, hword⟩
    · exact Or.inr ⟨value, hword⟩

theorem isDiagnosticOption_of_given {level : Level} {word : String} {a : Arg}
    {value : Option String} (hgiven : level.given? word = some (a, value)) :
    isDiagnosticOption word = a.isDiagnostic := by
  rw [Bool.eq_iff_iff, isDiagnosticOption_iff level]
  constructor
  · rintro ⟨b, other, hb, hother⟩
    rw [hgiven] at hother
    obtain ⟨rfl, -⟩ := Prod.mk.inj (Option.some.inj hother)
    exact hb
  · exact fun ha ↦ ⟨a, value, ha, hgiven⟩

theorem isDiagnosticOption_of_plain {word : String} (hplain : Word.of word = .plain word) :
    isDiagnosticOption word = false := by
  refine Bool.eq_false_iff.mpr fun h ↦ ?_
  obtain ⟨a, value, -, hgiven⟩ := (isDiagnosticOption_iff .top).mp h
  rw [Level.given?, hplain] at hgiven
  cases hgiven

theorem Level.ne_mark_of_given {level : Level} {word : String} {given : Arg × Option String}
    (hgiven : level.given? word = some given) : Word.of word ≠ .mark := by
  intro hmark
  rw [given?, hmark] at hgiven
  cases hgiven

/-- An option on diagnostics waits for its value exactly if there is no `=` in its word. -/
theorem contains_equals_of_diagnostic {level : Level} {word : String} {a : Arg}
    {value : Option String} (ha : a.isDiagnostic = true)
    (hgiven : level.given? word = some (a, value)) :
    word.toList.contains '=' = value.isSome := by
  obtain ⟨name, hname⟩ := Option.isSome_iff_exists.mp ha
  rw [(Level.given?_of_diagnostic hname).mp hgiven]
  exact contains_equals_optionWord (Level.name_of_long? (level.long?_of_diagnostic hname)).1 value

end RoleKey.CommandLine
