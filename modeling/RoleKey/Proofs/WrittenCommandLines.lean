import RoleKey.Proofs.ScannerLaws
import Mathlib.Data.List.Nodup
import Mathlib.Data.List.Perm.Basic

/-!
Every invocation can be written as a command line, whatever its texts are.

`Writes` says how: each option with its value attached or as a flag, in any order, the options on
diagnostics either all before the command or all among its options, and the text that is given by
its place behind the mark. Of the parser only its laws are used. Each option adds its setting to
what the words behind it give (`Parser.Lawful.adds_below`, `Parser.Lawful.adds_top`), and so do all
of them (`Parser.Adds.options`); settings for different arguments can be looked up in any order
(`lookup_of_perm`), so that a line gives the settings of its invocation (`given_of_writes`), which
make that invocation again (`invocation_of_settings`). The environment has no part in that, as long
as it does not name a format that there is not.
-/

set_option autoImplicit false
set_option relaxedAutoImplicit false

namespace RoleKey.CommandLine

/-! ### Writing -/

/-- An option as it is written: its long name, and the value behind `=` if it has one. -/
structure WrittenOption where
  name : String
  value : Option String

/-- The word of an option. -/
def WrittenOption.word (o : WrittenOption) : String := optionWord o.name o.value

/-- The words behind the options: the mark and the text that is given by its place. Without such a
text the mark may be left out. -/
def Places (text : Option String) (behind : List String) : Prop :=
  behind = "--" :: text.toList ∨ text = none ∧ behind = []

namespace Request

/-- A flag, which is written only if it is given. -/
def flag (name : String) (given : Bool) : List WrittenOption :=
  if given then [⟨name, none⟩] else []

/-- The options of a request. -/
def options : Request → List WrittenOption
  | generate _ json => flag "json" json
  | publicKey inkey => [⟨"inkey", some inkey⟩]
  | sign inkey _ => [⟨"inkey", some inkey⟩]
  | verify key signature _ => [⟨"key", some key⟩, ⟨"sig", some signature⟩]
  | inspect _ json => flag "json" json
  | version => []

/-- The argument of a request that is given by its place, if it has one, and its text. -/
def placement : Request → Option (Arg × String)
  | generate role _ => some (.role, role.name)
  | publicKey _ => none
  | sign _ data => some (.data, data)
  | verify _ _ data => some (.data, data)
  | inspect value _ => some (.value, value)
  | version => none

/-- The text of a request that is given by its place, if it has one. -/
def placed (r : Request) : Option String := r.placement.map Prod.snd

/-- The requests that can be made: pairs are generated for roles that sign, and paths are not
empty. -/
def Expressible : Request → Prop
  | generate role _ => role.isSigning = true
  | publicKey inkey => inkey ≠ ""
  | sign inkey data => inkey ≠ "" ∧ data ≠ ""
  | verify _ _ data => data ≠ ""
  | inspect _ _ => True
  | version => True

end Request

/-- The two options on diagnostics. -/
def Invocation.diagnosticOptions (i : Invocation) : List WrittenOption :=
  [⟨"log-level", some i.logLevel⟩, ⟨"log-format", some i.logFormat.name⟩]

/-- The command lines that an invocation is written as. -/
inductive Writes (i : Invocation) : List String → Prop
  /-- The options on diagnostics stand before the command. -/
  | above {top options : List WrittenOption} {behind : List String}
      (htop : top.Perm i.diagnosticOptions) (hoptions : options.Perm i.request.options)
      (hbehind : Places i.request.placed behind) :
      Writes i (top.map WrittenOption.word ++
        i.request.verb.name :: (options.map WrittenOption.word ++ behind))
  /-- The options on diagnostics stand among those of the command. -/
  | below {options : List WrittenOption} {behind : List String}
      (hoptions : options.Perm (i.request.options ++ i.diagnosticOptions))
      (hbehind : Places i.request.placed behind) :
      Writes i (i.request.verb.name :: (options.map WrittenOption.word ++ behind))

/-! ### Settings -/

section Settings

variable {a : Arg} {text : String} {settings : List (Arg × String)}

/-- Of settings for different arguments, the one that is looked up is the one that is there. -/
theorem lookup_eq_some_iff_mem (hnodup : (settings.map Prod.fst).Nodup) :
    settings.lookup a = some text ↔ (a, text) ∈ settings := by
  induction settings with
  | nil => simp
  | cons first settings ih =>
    obtain ⟨b, other⟩ := first
    rw [List.map_cons, List.nodup_cons] at hnodup
    rw [List.lookup_cons, List.mem_cons]
    by_cases hab : a = b
    · subst hab
      have hlater : (a, text) ∉ settings := fun h ↦ hnodup.1 (List.mem_map.mpr ⟨_, h, rfl⟩)
      simp [hlater, eq_comm]
    · simp [hab, beq_eq_false_iff_ne.mpr hab, ih hnodup.2]

/-- Settings for different arguments can be looked up in any order of them. -/
theorem lookup_of_perm {others : List (Arg × String)} (hperm : settings.Perm others)
    (hnodup : (settings.map Prod.fst).Nodup) (a : Arg) : settings.lookup a = others.lookup a := by
  have hothers := (hperm.map Prod.fst).nodup_iff.mp hnodup
  refine Option.ext fun text ↦ ?_
  rw [lookup_eq_some_iff_mem hnodup, lookup_eq_some_iff_mem hothers, hperm.mem_iff]

theorem Matches.ofSettings_of_perm {others : List (Arg × String)} (hperm : settings.Perm others)
    (hnodup : (settings.map Prod.fst).Nodup) (verb : Verb) :
    ofSettings verb settings = ofSettings verb others :=
  congrArg (Matches.mk verb) (funext (lookup_of_perm hperm hnodup))

end Settings

/-! ### Options -/

/-- The setting that an option makes at a level: the argument that it gives, and its value. -/
def WrittenOption.setting? (level : Level) (o : WrittenOption) : Option (Arg × String) :=
  match level.long? o.name.toList, o.value with
  | some (.valued a), some text => some (a, text)
  | some (.flag a), none => some (a, "")
  | _, _ => none

theorem WrittenOption.setting?_of_valued {level : Level} {name : String} {a : Arg}
    (h : level.long? name.toList = some (.valued a)) (text : String) :
    WrittenOption.setting? level ⟨name, some text⟩ = some (a, text) := by
  rw [WrittenOption.setting?, h]

/-- An option that is known before the command is on diagnostics. -/
theorem Level.diagnosticName?_of_long? {name : String} {option : Switch}
    (h : Level.top.long? name.toList = some option) :
    (∀ a, option ≠ .flag a) ∧ ∀ a, option = .valued a → a.diagnosticName? = some name := by
  obtain ⟨known, hknown, rfl⟩ := Option.map_eq_some_iff.mp h
  have hname : known.1 = name := String.toList_inj.mp (by simpa using List.find?_some hknown)
  have hall : ∀ known ∈ Level.top.ownOptions ++ commonOptions,
      (∀ a, known.2 ≠ .flag a) ∧ ∀ a, known.2 = .valued a → a.diagnosticName? = some known.1 := by
    simp [ownOptions, commonOptions, Arg.diagnosticName?]
  rw [← hname]
  exact hall known (List.mem_of_find?_eq_some hknown)

/-- Whether an option that comes in front of the words at a place adds its setting to what the line
gives. -/
def Parser.Adds (P : Parser) (verb : Verb) (level : Level) (place : List String → List String) :
    Prop :=
  ∀ (o : WrittenOption) (words : List String) (settings : List (Arg × String)) (a : Arg)
    (text : String), o.setting? level = some (a, text) →
    P.given (place words) = .ok (.ofSettings verb settings) → a ∉ settings.map Prod.fst →
    a.accepts text = true →
    P.given (place (o.word :: words)) = .ok (.ofSettings verb ((a, text) :: settings))

section Options

variable {P : Parser} {verb : Verb} {level : Level} {place : List String → List String}

theorem WrittenOption.setting?_cases {o : WrittenOption} {a : Arg} {text : String}
    (h : o.setting? level = some (a, text)) :
    (level.long? o.name.toList = some (.valued a) ∧ o.word = optionWord o.name (some text)) ∨
      level.long? o.name.toList = some (.flag a) ∧ o.word = optionWord o.name none ∧ text = "" := by
  obtain ⟨name, value⟩ := o
  unfold WrittenOption.setting? at h
  dsimp only at h
  split at h
  · rename_i hoption
    obtain ⟨rfl, rfl⟩ := Prod.mk.inj (Option.some.inj h)
    exact Or.inl ⟨hoption, rfl⟩
  · rename_i hoption
    obtain ⟨rfl, rfl⟩ := Prod.mk.inj (Option.some.inj h)
    exact Or.inr ⟨hoption, rfl, rfl⟩
  · cases h

/-- Behind the command the options of the command add their settings. -/
theorem Parser.Lawful.adds_below (hP : P.Lawful) (verb : Verb) :
    P.Adds verb (.below verb) (verb.name :: ·) := by
  intro o words settings a text hsetting hgiven hnew haccepts
  rcases o.setting?_cases hsetting with ⟨hoption, hword⟩ | ⟨hoption, hword, rfl⟩
  · rw [hword]
    exact hP.attached verb words settings o.name a text hgiven hoption hnew haccepts
  · rw [hword]
    exact hP.flag verb words settings o.name a hgiven hoption hnew

/-- Before the command the options on diagnostics do. -/
theorem Parser.Lawful.adds_top (hP : P.Lawful) (verb : Verb) :
    P.Adds verb .top fun words ↦ words := by
  intro o words settings a text hsetting hgiven hnew haccepts
  rcases o.setting?_cases hsetting with ⟨hoption, hword⟩ | ⟨hoption, -, -⟩
  · rw [hword]
    exact hP.before verb words settings o.name a text hgiven
      ((Level.diagnosticName?_of_long? hoption).2 a rfl) hnew haccepts
  · exact absurd rfl ((Level.diagnosticName?_of_long? hoption).1 a)

/-- Options for different arguments add all of their settings. -/
theorem Parser.Adds.options (h : P.Adds verb level place) {options : List WrittenOption}
    {words : List String} {settings : List (Arg × String)}
    (hread : ∀ o ∈ options, (o.setting? level).isSome)
    (hnew : ((options.filterMap (WrittenOption.setting? level) ++ settings).map Prod.fst).Nodup)
    (haccepts : ∀ setting ∈ options.filterMap (WrittenOption.setting? level),
      setting.1.accepts setting.2 = true)
    (hgiven : P.given (place words) = .ok (.ofSettings verb settings)) :
    P.given (place (options.map WrittenOption.word ++ words)) =
      .ok (.ofSettings verb (options.filterMap (WrittenOption.setting? level) ++ settings)) := by
  -- On the options: each comes in front of those behind it.
  induction options with
  | nil => exact hgiven
  | cons o options ih =>
    obtain ⟨⟨a, text⟩, hsetting⟩ := Option.isSome_iff_exists.mp (hread o List.mem_cons_self)
    rw [List.filterMap_cons_some hsetting] at hnew haccepts ⊢
    rw [List.cons_append, List.map_cons, List.nodup_cons] at hnew
    refine h o _ _ a text hsetting ?_ hnew.1 (haccepts _ List.mem_cons_self)
    exact ih (fun other hother ↦ hread other (List.mem_cons_of_mem _ hother)) hnew.2
      fun setting hmem ↦ haccepts setting (List.mem_cons_of_mem _ hmem)

/-- Options in any order make the settings that they make in another one. -/
theorem filterMap_setting?_perm {options canonical : List WrittenOption}
    {made : List (Arg × String)} (hperm : options.Perm canonical)
    (hmade : canonical.map (WrittenOption.setting? level) = made.map some) :
    (∀ o ∈ options, (o.setting? level).isSome) ∧
      (options.filterMap (WrittenOption.setting? level)).Perm made := by
  constructor
  · intro o ho
    have hsome : o.setting? level ∈ canonical.map (WrittenOption.setting? level) :=
      List.mem_map_of_mem (hperm.mem_iff.mp ho)
    rw [hmade] at hsome
    obtain ⟨setting, -, hsetting⟩ := List.mem_map.mp hsome
    rw [← hsetting, Option.isSome_some]
  · have hmap := congrArg (List.filterMap id) hmade
    have hcanonical : canonical.filterMap (WrittenOption.setting? level) = made := by
      simpa [List.filterMap_map] using hmap
    exact hcanonical ▸ hperm.filterMap _

end Options

/-! ### The settings of an invocation -/

namespace Request

/-- The settings that the options of a request make. -/
def optionSettings : Request → List (Arg × String)
  | generate _ json => if json then [(.json, "")] else []
  | publicKey inkey => [(.inkey, inkey)]
  | sign inkey _ => [(.inkey, inkey)]
  | verify key signature _ => [(.key, key), (.signature, signature)]
  | inspect _ json => if json then [(.json, "")] else []
  | version => []

/-- The settings that make a request. -/
def settings (r : Request) : List (Arg × String) := r.placement.toList ++ r.optionSettings

theorem map_setting?_options (r : Request) :
    r.options.map (WrittenOption.setting? (.below r.verb)) = r.optionSettings.map some := by
  have hpublicKey (text : String) :
      WrittenOption.setting? (.below .publicKey) ⟨"inkey", some text⟩ = some (.inkey, text) :=
    WrittenOption.setting?_of_valued (by decide) text
  have hsign (text : String) :
      WrittenOption.setting? (.below .sign) ⟨"inkey", some text⟩ = some (.inkey, text) :=
    WrittenOption.setting?_of_valued (by decide) text
  have hkey (text : String) :
      WrittenOption.setting? (.below .verify) ⟨"key", some text⟩ = some (.key, text) :=
    WrittenOption.setting?_of_valued (by decide) text
  have hsignature (text : String) :
      WrittenOption.setting? (.below .verify) ⟨"sig", some text⟩ = some (.signature, text) :=
    WrittenOption.setting?_of_valued (by decide) text
  rcases r with ⟨_, _ | _⟩ | _ | _ | _ | ⟨_, _ | _⟩ | _
  case publicKey => simp [options, optionSettings, verb, hpublicKey]
  case sign => simp [options, optionSettings, verb, hsign]
  case verify => simp [options, optionSettings, verb, hkey, hsignature]
  all_goals rfl

/-- The settings of a request are for different arguments, none of which is on diagnostics. -/
theorem nodup_settings (r : Request) :
    (.logLevel :: .logFormat :: r.settings.map Prod.fst).Nodup := by
  rcases r with ⟨_, _ | _⟩ | _ | _ | _ | ⟨_, _ | _⟩ | _ <;>
    simp [settings, placement, optionSettings]

theorem accepts_of_mem_settings {r : Request} (h : r.Expressible) :
    ∀ setting ∈ r.settings, setting.1.accepts setting.2 = true := by
  rcases r with ⟨_, _ | _⟩ | _ | _ | _ | ⟨_, _ | _⟩ | _ <;>
    simp_all [settings, placement, optionSettings, Arg.accepts, Expressible, Role.ofName?_name]

end Request

namespace Invocation

/-- The settings on diagnostics. -/
def diagnosticSettings (i : Invocation) : List (Arg × String) :=
  [(.logLevel, i.logLevel), (.logFormat, i.logFormat.name)]

theorem map_setting?_diagnosticOptions (i : Invocation) (level : Level) :
    i.diagnosticOptions.map (WrittenOption.setting? level) = i.diagnosticSettings.map some := by
  have hlevel : level.long? "log-level".toList = some (.valued .logLevel) := by
    rcases level with _ | _ | _ | _ | _ | _ | _ <;> decide
  have hformat : level.long? "log-format".toList = some (.valued .logFormat) := by
    rcases level with _ | _ | _ | _ | _ | _ | _ <;> decide
  simp [diagnosticOptions, diagnosticSettings, WrittenOption.setting?_of_valued hlevel,
    WrittenOption.setting?_of_valued hformat]

theorem accepts_of_mem_diagnosticSettings (i : Invocation) :
    ∀ setting ∈ i.diagnosticSettings, setting.1.accepts setting.2 = true := by
  obtain ⟨_, _, _ | _⟩ := i <;> simp [diagnosticSettings, Arg.accepts] <;> decide

/-- All settings of an invocation. -/
def settings (i : Invocation) : List (Arg × String) := i.diagnosticSettings ++ i.request.settings

theorem nodup_settings_of_invocation (i : Invocation) : (i.settings.map Prod.fst).Nodup := by
  have hrequest := i.request.nodup_settings
  rw [settings, List.map_append]
  exact hrequest

theorem accepts_of_mem_settings {i : Invocation} (h : i.request.Expressible) :
    ∀ setting ∈ i.settings, setting.1.accepts setting.2 = true := by
  intro setting hmem
  exact (List.mem_append.mp hmem).elim (i.accepts_of_mem_diagnosticSettings setting)
    (Request.accepts_of_mem_settings h setting)

end Invocation

/-! ### The whole line -/

section Line

variable {P : Parser} {words : List String} {i : Invocation}

/-- The words behind the options give the text that has its place there. -/
theorem Parser.Lawful.given_behind (hP : P.Lawful) (hexp : i.request.Expressible)
    {behind : List String} (hbehind : Places i.request.placed behind) :
    P.given (i.request.verb.name :: behind) =
      .ok (.ofSettings i.request.verb i.request.placement.toList) := by
  have hplaces : i.request.placement.toList.map Prod.fst =
      (Level.below i.request.verb).positionals := by
    cases i.request <;> rfl
  have hplaced : i.request.placement.toList.map Prod.snd = i.request.placed.toList := by
    cases i.request <;> rfl
  have haccepts : ∀ setting ∈ i.request.placement.toList, setting.1.accepts setting.2 = true :=
    fun setting hmem ↦ Request.accepts_of_mem_settings hexp setting (List.mem_append_left _ hmem)
  rcases hbehind with rfl | ⟨hnone, rfl⟩
  · rw [← hplaced]
    exact hP.placed i.request.verb _ hplaces haccepts
  · rw [Option.map_eq_none_iff.mp hnone]
    exact hP.command i.request.verb

/-- Whatever line an invocation is written as, the line gives its settings. -/
theorem given_of_writes (hP : P.Lawful) (hexp : i.request.Expressible) (hwrites : Writes i words) :
    P.given words = .ok (.ofSettings i.request.verb i.settings) := by
  have hnodup := i.nodup_settings_of_invocation
  have haccepts := Invocation.accepts_of_mem_settings hexp
  -- All that is left of either way of writing is the order of the settings.
  suffices hperm : ∃ settings : List (Arg × String), settings.Perm i.settings ∧
      P.given words = .ok (.ofSettings i.request.verb settings) by
    obtain ⟨settings, hperm, hgiven⟩ := hperm
    rw [hgiven, Matches.ofSettings_of_perm hperm ((hperm.map Prod.fst).nodup_iff.mpr hnodup)]
  cases hwrites with
  | @above top options behind htop hoptions hbehind =>
    obtain ⟨hreadTop, hmadeTop⟩ :=
      filterMap_setting?_perm htop (i.map_setting?_diagnosticOptions .top)
    obtain ⟨hreadBelow, hmadeBelow⟩ :=
      filterMap_setting?_perm hoptions i.request.map_setting?_options
    have hbelow := (hmadeBelow.append_right i.request.placement.toList).trans List.perm_append_comm
    have hall := hmadeTop.append hbelow
    have hnodupAll := (hall.map Prod.fst).nodup_iff.mpr hnodup
    have hnodupBelow := hnodupAll
    rw [List.map_append] at hnodupBelow
    refine ⟨_, hall, (hP.adds_top i.request.verb).options hreadTop hnodupAll
      (fun setting hmem ↦ haccepts setting (hall.mem_iff.mp (List.mem_append_left _ hmem))) ?_⟩
    refine (hP.adds_below i.request.verb).options hreadBelow hnodupBelow.of_append_right
      (fun setting hmem ↦ haccepts setting (hall.mem_iff.mp (List.mem_append_right _ ?_)))
      (hP.given_behind hexp hbehind)
    exact List.mem_append_left _ hmem
  | @below options behind hoptions hbehind =>
    have hcanonical : (i.request.options ++ i.diagnosticOptions).map
          (WrittenOption.setting? (.below i.request.verb)) =
        (i.request.optionSettings ++ i.diagnosticSettings).map some := by
      rw [List.map_append, i.request.map_setting?_options, i.map_setting?_diagnosticOptions,
        List.map_append]
    obtain ⟨hread, hmade⟩ := filterMap_setting?_perm hoptions hcanonical
    have hall : (options.filterMap (WrittenOption.setting? (.below i.request.verb)) ++
        i.request.placement.toList).Perm i.settings := by
      refine (hmade.append_right _).trans ((List.perm_append_comm.append_right _).trans ?_)
      rw [List.append_assoc]
      exact List.perm_append_comm.append_left _
    refine ⟨_, hall, (hP.adds_below i.request.verb).options hread
      ((hall.map Prod.fst).nodup_iff.mpr hnodup)
      (fun setting hmem ↦ haccepts setting (hall.mem_iff.mp (List.mem_append_left _ hmem)))
      (hP.given_behind hexp hbehind)⟩

end Line

/-! ### The invocation -/

/-- Whether the environment names a format, if it has a name for one at all. -/
def Environment.FormatKnown (env : Environment) : Prop :=
  ∀ text, env.logFormat = some text → (Diagnostics.Format.ofName? text).isSome

section Reading

variable {P : Parser} {env : Environment} {words : List String} {i : Invocation}

/-- The settings of a request have all that its command cannot do without. -/
theorem Request.exists_mem_settings (r : Request) :
    ∀ a ∈ r.verb.required, ∃ text, (a, text) ∈ r.settings := by
  rcases r with ⟨_, _ | _⟩ | _ | _ | _ | ⟨_, _ | _⟩ | _ <;>
    simp [verb, Verb.required, settings, placement, optionSettings]

/-- A command that looks for a path in the environment has one already. -/
theorem Request.exists_mem_settings_of_fromEnvironment (r : Request)
    (h : .inkey ∈ (Level.below r.verb).fromEnvironment) : ∃ text, (.inkey, text) ∈ r.settings := by
  cases r with
  | publicKey inkey => exact ⟨inkey, by simp [settings, optionSettings]⟩
  | sign inkey data => exact ⟨inkey, by simp [settings, optionSettings]⟩
  | _ => exact absurd h (by simp [verb, Level.fromEnvironment])

theorem Level.mem_fromEnvironment {level : Level} {a : Arg} (h : a ∈ level.fromEnvironment) :
    a = .logLevel ∨ a = .logFormat ∨ a = .inkey := by
  rcases level with _ | _ | _ | _ | _ | _ | _ <;> simp [fromEnvironment] at h <;> tauto

/-- An environment that names no unknown format has nothing that the arguments of an invocation
cannot have: its paths are given, and any text is a level. -/
theorem Environment.FormatKnown.suits (henv : env.FormatKnown) (i : Invocation) :
    env.Suits (.ofSettings i.request.verb i.settings) := by
  intro a hmem hasked text hset
  rcases Level.mem_fromEnvironment hmem with rfl | rfl | rfl
  · rfl
  · exact henv text hset
  · obtain ⟨inkey, hinkey⟩ := i.request.exists_mem_settings_of_fromEnvironment hmem
    rcases hasked with hnone | hdiagnostic
    · have hlookup := (lookup_eq_some_iff_mem i.nodup_settings_of_invocation).mpr
        (List.mem_append_right _ hinkey)
      exact absurd (hlookup.symm.trans hnone) (Option.some_ne_none inkey)
    · exact absurd hdiagnostic (by decide)

/-- Completing leaves the settings of an invocation as they are. -/
theorem value?_completed_of_mem {a : Arg} {text : String} (h : (a, text) ∈ i.settings) :
    ((Matches.ofSettings i.request.verb i.settings).completed env).value? a = some text := by
  have hlookup : i.settings.lookup a = some text :=
    (lookup_eq_some_iff_mem i.nodup_settings_of_invocation).mpr h
  simp [Matches.completed, Matches.ofSettings, hlookup]

/-- Completing gives no flag: the environment has none, and there is no default for one. -/
theorem value?_completed_json_of_not_mem (h : .json ∉ i.settings.map Prod.fst) :
    ((Matches.ofSettings i.request.verb i.settings).completed env).value? .json = none := by
  have hlookup : i.settings.lookup .json = none := lookup_of_not_mem h
  have hset : env.value? .json = none := rfl
  simp only [Matches.completed, Matches.ofSettings, hlookup, hset, ite_self]
  rfl

/-- A flag among the settings of a request is found there if the request has it. -/
theorem Matches.isSome_value?_json {m : Matches} {r : Request} {json : Bool}
    (hrequest : (∃ role, r = .generate role json) ∨ ∃ value, r = .inspect value json)
    (hvalue : ∀ a text, (a, text) ∈ r.settings → m.value? a = some text)
    (hjson : .json ∉ r.settings.map Prod.fst → m.value? .json = none) :
    (m.value? .json).isSome = json := by
  cases json with
  | false =>
    rw [hjson, Option.isSome_none]
    rcases hrequest with ⟨_, rfl⟩ | ⟨_, rfl⟩ <;>
      simp [Request.settings, Request.placement, Request.optionSettings]
  | true =>
    rw [hvalue .json "", Option.isSome_some]
    rcases hrequest with ⟨_, rfl⟩ | ⟨_, rfl⟩ <;>
      simp [Request.settings, Request.optionSettings]

/-- The settings of a request make the request, if no flag comes to them. -/
theorem Matches.request_of_settings {m : Matches} {r : Request} (hverb : m.verb = r.verb)
    (hvalue : ∀ a text, (a, text) ∈ r.settings → m.value? a = some text)
    (hjson : .json ∉ r.settings.map Prod.fst → m.value? .json = none) : m.request = .ok r := by
  have hplacement (a : Arg) (text : String) (h : r.placement = some (a, text)) :
      m.value? a = some text :=
    hvalue a text (List.mem_append_left _ (Option.mem_toList.mpr h))
  have hoption (a : Arg) (text : String) (h : (a, text) ∈ r.optionSettings) :
      m.text a = .ok text :=
    text_of_value? (hvalue a text (List.mem_append_right _ h))
  rw [request, hverb]
  cases r with
  | generate role json =>
    rw [Request.verb, named_of_value? (hplacement .role role.name rfl) role.ofName?_name,
      isSome_value?_json (Or.inl ⟨role, rfl⟩) hvalue hjson]
    rfl
  | publicKey inkey =>
    rw [Request.verb, hoption .inkey inkey List.mem_cons_self]
    rfl
  | sign inkey data =>
    rw [Request.verb, hoption .inkey inkey List.mem_cons_self,
      text_of_value? (hplacement .data data rfl)]
    rfl
  | verify key signature data =>
    rw [Request.verb, hoption .key key List.mem_cons_self,
      hoption .signature signature (List.mem_cons_of_mem _ List.mem_cons_self),
      text_of_value? (hplacement .data data rfl)]
    rfl
  | inspect value json =>
    rw [Request.verb, text_of_value? (hplacement .value value rfl),
      isSome_value?_json (Or.inr ⟨value, rfl⟩) hvalue hjson]
    rfl
  | version => rfl

/-- The settings of an invocation make the invocation again. -/
theorem invocation_of_settings (env : Environment) (i : Invocation) :
    ((Matches.ofSettings i.request.verb i.settings).completed env).invocation = .ok i := by
  have hlevel : (Arg.logLevel, i.logLevel) ∈ i.settings := List.mem_cons_self
  have hformat : (Arg.logFormat, i.logFormat.name) ∈ i.settings :=
    List.mem_cons_of_mem _ List.mem_cons_self
  have hname : Diagnostics.Format.ofName? i.logFormat.name = some i.logFormat := by
    cases i.logFormat <;> rfl
  have hrequest : ((Matches.ofSettings i.request.verb i.settings).completed env).request =
      .ok i.request := by
    refine Matches.request_of_settings rfl
      (fun a text h ↦ value?_completed_of_mem (List.mem_append_right _ h)) fun hjson ↦
        value?_completed_json_of_not_mem ?_
    simpa [Invocation.settings, Invocation.diagnosticSettings] using hjson
  exact Matches.invocation_eq_ok_iff.mpr
    ⟨hrequest, Matches.text_of_value? (value?_completed_of_mem hlevel),
      Matches.named_of_value? (value?_completed_of_mem hformat) hname⟩

/-- An invocation is read from every line that it is written as, with nothing set in the environment
and with anything set there that names no unknown format. -/
theorem read_of_writes (hP : P.Lawful) (hexp : i.request.Expressible) (hwrites : Writes i words) :
    P.read .empty words = .ok i ∧
      ∀ env : Environment, env.FormatKnown → P.read env words = .ok i := by
  suffices hread : ∀ env : Environment, env.FormatKnown → P.read env words = .ok i from
    ⟨hread .empty fun text hset ↦ (Option.some_ne_none text hset.symm).elim, hread⟩
  intro env henv
  have hgiven := given_of_writes hP hexp hwrites
  have hrequired : ∀ a ∈ i.request.verb.required,
      (((Matches.ofSettings i.request.verb i.settings).completed env).value? a).isSome := by
    intro a hmem
    obtain ⟨text, htext⟩ := i.request.exists_mem_settings a hmem
    rw [value?_completed_of_mem (List.mem_append_right _ htext), Option.isSome_some]
  rw [Parser.read, hP.completes env words _ hgiven (henv.suits i) hrequired]
  exact invocation_of_settings env i

/-- Texts that look like options, on a line whose options are not in the order of the request. -/
theorem read_of_writes_texts_like_options :
    read ⟨none, some "pretty", some "other", none⟩
      ["--log-format=json", "--log-level=-x=y", "verify", "--sig=a=b c", "--key=--json", "--",
        "--log-level=trace"] =
      .ok ⟨.verify "--json" "a=b c" "--log-level=trace", "-x=y", .json⟩ := by
  have hwords : ["--log-format=json", "--log-level=-x=y", "verify", "--sig=a=b c", "--key=--json",
      "--", "--log-level=trace"] =
        [WrittenOption.mk "log-format" (some "json"), ⟨"log-level", some "-x=y"⟩].map
            WrittenOption.word ++
          Verb.verify.name ::
            ([WrittenOption.mk "sig" (some "a=b c"), ⟨"key", some "--json"⟩].map
              WrittenOption.word ++ ["--", "--log-level=trace"]) := by decide
  rw [hwords]
  exact (read_of_writes (i := ⟨.verify "--json" "a=b c" "--log-level=trace", "-x=y", .json⟩)
    scanner_lawful (by decide : "--log-level=trace" ≠ "")
    (.above (.swap _ _ _) (.swap _ _ _) (Or.inl rfl))).2 _ fun text hset ↦
      Option.some.inj hset ▸ (by decide)

/-- The environment is asked for a format at the level that gives none, so an unknown one there is
refused though the line has another. -/
example : read ⟨none, some "other", none, none⟩ ["version", "--log-format=json"] =
    .error (.usage .invalidValue) := by rfl

end Reading

end RoleKey.CommandLine
