import RoleKey.Proofs.DiagnosticOptions

/-!
The scanner is a lawful parser.

Three laws compare a line with the same line and one option more in front. Reading the option
settles its argument, and the words behind it are then read as they are without it, with that
argument besides (`Scan.foldlM_having`, `Scan.readTop_having`). One word more keeps it so
(`Scan.Step.having`), since no word gives the argument once more: whatever a word settles stays
settled (`Scan.Step.fresh`). The law of defaults rests on the opposite: an argument that no word
gives is not there after all words of a level (`Scan.Lacks.foldlM`) or before a command
(`Scan.Lacks.readTop`). `scanner_lawful` puts the laws together.
-/

set_option autoImplicit false
set_option relaxedAutoImplicit false

namespace RoleKey.CommandLine

theorem lookup_of_not_mem {a : Arg} {settings : List (Arg × String)}
    (h : a ∉ settings.map Prod.fst) : settings.lookup a = none := by
  rw [List.lookup_eq_none_iff]
  rintro ⟨b, other⟩ hb
  have hne : a ≠ b := by
    rintro rfl
    exact h (List.mem_map.mpr ⟨_, hb, rfl⟩)
  simpa using hne

namespace Scan

variable {level : Level} {s t u : Scan} {word text value : String} {words : List String}
  {a b : Arg}

/-! ### One argument more -/

/-- What has been read, with one argument more settled. -/
def having (s : Scan) (setting : Arg × String) : Scan :=
  { s with settled := s.settled ++ [setting] }

theorem value?_having (s : Scan) (a b : Arg) (text : String) :
    (s.having (a, text)).value? b = (s.value? b).or (if b = a then some text else none) := by
  rw [value?, having, List.lookup_append, List.lookup_cons, value?]
  by_cases hb : b = a
  · rw [if_pos hb, beq_iff_eq.mpr hb]
  · rw [if_neg hb, beq_eq_false_iff_ne.mpr hb]
    rfl

theorem record_having (h : s.record b value = .ok t) (hne : b ≠ a) :
    (s.having (a, text)).record b value = .ok (t.having (a, text)) := by
  obtain ⟨hnew, haccepts, rfl⟩ := record_eq_ok_iff.mp h
  refine record_eq_ok_iff.mpr ⟨?_, haccepts, rfl⟩
  rw [value?_having, hnew, if_neg hne, Option.or_none]

theorem fresh_of_record (h : s.record b value = .ok t) (hnone : t.value? a = none) :
    b ≠ a ∧ s.value? a = none := by
  rw [value?_record h] at hnone
  split_ifs at hnone with hb
  exact ⟨Ne.symm hb, hnone⟩

theorem fresh_of_settle (h : s.settle = .ok u) (hnone : u.value? a = none) :
    s.value? a = none := by
  rcases settle_eq_ok_iff.mp h with ⟨-, rfl⟩ | ⟨b, value, -, hrecord⟩
  · exact hnone
  · exact (fresh_of_record hrecord hnone).2

theorem settle_having (h : s.settle = .ok u) (hnone : u.value? a = none) :
    (s.having (a, text)).settle = .ok (u.having (a, text)) := by
  rcases settle_eq_ok_iff.mp h with ⟨hpending, rfl⟩ | ⟨b, value, hpending, hrecord⟩
  · exact settle_of_pending_eq_none hpending
  · exact settle_eq_ok_iff.mpr (Or.inr ⟨b, value, hpending,
      record_having hrecord (fresh_of_record hrecord hnone).1⟩)

/-- What is not settled after a word was not settled before it. -/
theorem Step.fresh (h : Step level s word t) (hnone : t.value? a = none) : s.value? a = none := by
  cases h with
  | mark => exact hnone
  | value => exact hnone
  | place _ _ hsettle => exact fresh_of_settle hsettle hnone
  | settled _ _ hsettle hrecord => exact fresh_of_settle hsettle (fresh_of_record hrecord hnone).2
  | opened _ _ hsettle => exact fresh_of_settle hsettle hnone

/-- A word that does not settle an argument does the same with that argument settled. -/
theorem Step.having (h : Step level s word t) (hnone : t.value? a = none) (text : String) :
    Step level (s.having (a, text)) word (t.having (a, text)) := by
  cases h with
  | mark hmarked hmark => exact .mark hmarked hmark
  | value hmarked hplain hpending => exact .value hmarked hplain hpending
  | place hplace hpositionals hsettle =>
    exact .place (s := s.having (a, text)) hplace hpositionals (settle_having hsettle hnone)
  | settled hmarked hgiven hsettle hrecord =>
    obtain ⟨hne, hfresh⟩ := fresh_of_record hrecord hnone
    exact .settled (s := s.having (a, text)) hmarked hgiven (settle_having hsettle hfresh)
      (record_having hrecord hne)
  | opened hmarked hgiven hsettle =>
    exact .opened (s := s.having (a, text)) hmarked hgiven (settle_having hsettle hnone)

/-- The words of a level that do not settle an argument do the same with that argument settled. -/
theorem foldlM_having (hread : words.foldlM (Scan.word level) s = .ok t)
    (hnone : t.value? a = none) (text : String) :
    words.foldlM (Scan.word level) (s.having (a, text)) = .ok (t.having (a, text)) ∧
      s.value? a = none := by
  induction words generalizing s with
  | nil =>
    obtain rfl := Except.ok.inj hread
    exact ⟨rfl, hnone⟩
  | cons word words ih =>
    rw [List.foldlM_cons, bind_eq_ok_iff] at hread
    obtain ⟨u, hword, hrest⟩ := hread
    obtain ⟨hhaving, hfresh⟩ := ih hrest
    have hstep := word_eq_ok_iff_step.mp hword
    refine ⟨?_, hstep.fresh hfresh⟩
    rw [List.foldlM_cons, bind_eq_ok_iff]
    exact ⟨_, word_eq_ok_iff_step.mpr (hstep.having hfresh text), hhaving⟩

/-- So do the words before a command. -/
theorem readTop_having {command : Verb × List String}
    (hread : readTop s words = .ok (t, some command)) (hnone : t.value? a = none)
    (text : String) :
    readTop (s.having (a, text)) words = .ok (t.having (a, text), some command) ∧
      s.value? a = none := by
  induction words generalizing s with
  | nil => cases hread
  | cons word words ih =>
    rcases readTop_cons_cases hread with ⟨hmarked, hawaits, verb, rfl, hresult⟩ |
      ⟨hplace, u, hword, hrest⟩
    · obtain ⟨rfl, hcommand⟩ := Prod.mk.inj hresult
      rw [hcommand]
      exact ⟨readTop_name (s := t.having (a, text)) hmarked hawaits verb words, hnone⟩
    · obtain ⟨hhaving, hfresh⟩ := ih hrest
      have hstep := word_eq_ok_iff_step.mp hword
      refine ⟨?_, hstep.fresh hfresh⟩
      rw [readTop_cons (s := s.having (a, text)) hplace, bind_eq_ok_iff]
      exact ⟨_, word_eq_ok_iff_step.mpr (hstep.having hfresh text), hhaving⟩

end Scan

/-! ### What the words of a line give -/

section Given

variable {verb : Verb} {words : List String} {settings : List (Arg × String)} {a : Arg}
  {word text : String} {m : Matches}

/-- Where nothing stands before the command, the words behind it give all that is given. -/
theorem scanGiven_name_eq_ok_iff :
    scanGiven (verb.name :: words) = .ok m ↔
      ∃ below given, readBelow verb words = .ok below ∧ below.settle = .ok given ∧
        m = ⟨verb, given.value?⟩ := by
  have hboth (given : Scan) : bothLevels verb (.start .top) given = ⟨verb, given.value?⟩ := by
    refine congrArg (Matches.mk verb) (funext fun a ↦ ?_)
    split_ifs
    · exact Option.or_none
    · rfl
  have htop : readTop (.start .top) (verb.name :: words) = .ok (.start .top, some (verb, words)) :=
    readTop_name rfl rfl verb words
  rw [scanGiven_eq_ok_iff]
  constructor
  · rintro ⟨top, verb', behind, below, givenTop, given, htop', hbelow, hsettle, hsettleTop, rfl⟩
    obtain ⟨rfl, hcommand⟩ := Prod.mk.inj (Except.ok.inj (htop.symm.trans htop'))
    obtain ⟨rfl, rfl⟩ := Prod.mk.inj (Option.some.inj hcommand)
    obtain rfl := Except.ok.inj hsettleTop
    exact ⟨below, given, hbelow, hsettle, hboth given⟩
  · rintro ⟨below, given, hbelow, hsettle, rfl⟩
    exact ⟨_, verb, words, below, _, given, htop, hbelow, hsettle, rfl, (hboth given).symm⟩

/-- An option behind the command adds its argument. -/
theorem scanGiven_option (hgiven : scanGiven (verb.name :: words) = .ok (.ofSettings verb settings))
    (hnew : a ∉ settings.map Prod.fst)
    (hword : (Scan.start (.below verb)).word (.below verb) word =
      .ok ((Scan.start (.below verb)).having (a, text))) :
    scanGiven (verb.name :: word :: words) = .ok (.ofSettings verb ((a, text) :: settings)) := by
  obtain ⟨below, given, hread, hsettle, hm⟩ := scanGiven_name_eq_ok_iff.mp hgiven
  have hvalue (b : Arg) : given.value? b = settings.lookup b :=
    (congrFun (Matches.mk.inj hm).2 b).symm
  have hnone : given.value? a = none := (hvalue a).trans (lookup_of_not_mem hnew)
  obtain ⟨hhaving, -⟩ := Scan.foldlM_having hread (Scan.fresh_of_settle hsettle hnone) text
  refine scanGiven_name_eq_ok_iff.mpr
    ⟨below.having (a, text), given.having (a, text), ?_, Scan.settle_having hsettle hnone, ?_⟩
  · rw [readBelow, List.foldlM_cons, hword]
    exact hhaving
  · refine congrArg (Matches.mk verb) (funext fun b ↦ ?_)
    rw [Scan.value?_having, hvalue, List.lookup_cons]
    by_cases hb : b = a
    · rw [if_pos hb, beq_iff_eq.mpr hb, hb, lookup_of_not_mem hnew, Option.none_or]
    · rw [if_neg hb, beq_eq_false_iff_ne.mpr hb, Option.or_none]

/-- An option on diagnostics before the command adds its argument. -/
theorem scanGiven_before {name : String}
    (hgiven : scanGiven words = .ok (.ofSettings verb settings))
    (ha : a.diagnosticName? = some name) (hnew : a ∉ settings.map Prod.fst)
    (haccepts : a.accepts text = true) :
    scanGiven (optionWord name (some text) :: words) =
      .ok (.ofSettings verb ((a, text) :: settings)) := by
  obtain ⟨top, verb', behind, below, givenTop, givenBelow, htop, hbelow, hsettle, hsettleTop, hm⟩ :=
    scanGiven_eq_ok_iff.mp hgiven
  obtain ⟨rfl, hvalues⟩ := Matches.mk.inj hm
  have hvalue (b : Arg) : settings.lookup b =
      if b.isDiagnostic then (givenBelow.value? b).or (givenTop.value? b)
      else givenBelow.value? b := congrFun hvalues b
  have hdiagnostic : a.isDiagnostic = true := by rw [Arg.isDiagnostic, ha, Option.isSome_some]
  have hboth := hvalue a
  rw [lookup_of_not_mem hnew, if_pos hdiagnostic] at hboth
  obtain ⟨hnoneBelow, hnoneTop⟩ := Option.or_eq_none_iff.mp hboth.symm
  obtain ⟨hhaving, -⟩ := Scan.readTop_having htop (Scan.fresh_of_settle hsettleTop hnoneTop) text
  have hword : (Scan.start .top).word .top (optionWord name (some text)) =
      .ok ((Scan.start .top).having (a, text)) := by
    rw [Scan.word_of_valued rfl rfl (Level.top.long?_of_diagnostic ha)]
    exact Scan.record_eq_ok_iff.mpr ⟨rfl, haccepts, rfl⟩
  refine scanGiven_eq_ok_iff.mpr ⟨top.having (a, text), verb, behind, below,
    givenTop.having (a, text), givenBelow, ?_, hbelow, hsettle,
    Scan.settle_having hsettleTop hnoneTop, congrArg (Matches.mk verb) (funext fun b ↦ ?_)⟩
  · rw [readTop_cons (Or.inr (Or.inr (isCommandWord_optionWord _ _))), hword]
    exact hhaving
  · rw [List.lookup_cons, hvalue, Scan.value?_having]
    by_cases hb : b = a
    · subst hb
      rw [beq_self_eq_true, if_pos hdiagnostic, hnoneBelow, hnoneTop, if_pos rfl,
        if_pos hdiagnostic]
      rfl
    · rw [beq_eq_false_iff_ne.mpr hb, if_neg hb, Option.or_none]

/-- Behind the mark a text is taken by its place. No command takes two. -/
theorem scanGiven_placed (hplaces : settings.map Prod.fst = (Level.below verb).positionals)
    (haccepts : ∀ setting ∈ settings, setting.1.accepts setting.2 = true) :
    scanGiven (verb.name :: "--" :: settings.map Prod.snd) = .ok (.ofSettings verb settings) := by
  have hmark : (Scan.start (.below verb)).word (.below verb) "--" =
      .ok { Scan.start (.below verb) with marked := true } := rfl
  rw [scanGiven_name_eq_ok_iff, readBelow, List.foldlM_cons, hmark]
  rcases settings with _ | ⟨⟨a, text⟩, _ | ⟨next, others⟩⟩
  · exact ⟨_, _, rfl, rfl, rfl⟩
  · have hword : ({ Scan.start (.below verb) with marked := true } : Scan).word (.below verb) text =
        .ok ⟨[], some ⟨a, some text⟩, [], true⟩ := by
      rw [Scan.word, if_pos rfl, Scan.positional, Scan.start]
      dsimp only
      rw [← hplaces]
      rfl
    have hsettle : (⟨[], some ⟨a, some text⟩, [], true⟩ : Scan).settle =
        .ok ⟨[(a, text)], none, [], true⟩ :=
      Scan.record_eq_ok_iff.mpr ⟨rfl, haccepts _ List.mem_cons_self, rfl⟩
    refine ⟨_, _, ?_, hsettle, rfl⟩
    change ([text].foldlM (Scan.word _) _ : Except Stop Scan) = _
    rw [List.foldlM_cons, hword]
    rfl
  · cases verb <;> simp [Level.positionals] at hplaces

end Given

/-! ### Arguments that are not given -/

theorem NoOption.cons {name word : String} {words : List String}
    (h : NoOption name (word :: words)) (hword : word ≠ "--") :
    writesOption name word = false ∧ NoOption name words := by
  have htake : (word :: words).takeWhile (fun word ↦ word != "--") =
      word :: words.takeWhile (fun word ↦ word != "--") :=
    List.takeWhile_cons_of_pos (by simpa using hword)
  rw [NoOption, htake] at h
  exact ⟨h word List.mem_cons_self, fun other hother ↦ h other (List.mem_cons_of_mem _ hother)⟩

namespace Scan

variable {level : Level} {s t : Scan} {words : List String} {name : String} {a : Arg}

theorem Step.word_ne_mark {word : String} (h : Step level s word t) (hmarked : t.marked = false) :
    word ≠ "--" := by
  rintro rfl
  have hmark : Word.of "--" = .mark := rfl
  cases h with
  | mark => cases hmarked
  | value _ hplain => cases hmark.symm.trans hplain
  | place hplace _ hsettle =>
    rcases hplace with hread | ⟨hplain, -⟩
    · rw [← marked_of_settle hsettle] at hread
      exact Bool.noConfusion (hread.symm.trans hmarked)
    · cases hmark.symm.trans hplain
  | settled _ hgiven => exact Level.ne_mark_of_given hgiven hmark
  | opened _ hgiven => exact Level.ne_mark_of_given hgiven hmark

/-- An argument on diagnostics that no option gives is not there after one word more. -/
theorem Lacks.word {word : String} (h : Lacks a s) (ha : a.diagnosticName? = some name)
    (hnone : s.marked = false → NoOption name (word :: words)) (hread : s.word level word = .ok t) :
    Lacks a t ∧ (t.marked = false → word ≠ "--" ∧ NoOption name words) := by
  have hstep := word_eq_ok_iff_step.mp hread
  have hequals := (Level.name_of_long? (level.long?_of_diagnostic ha)).1
  constructor
  · refine h.step hstep fun hmarked value hgiven ↦ ?_
    have hword : word ≠ "--" := fun hword ↦
      Level.ne_mark_of_given hgiven (Word.of_eq_mark_iff.mpr hword)
    have hwritten := (writesOption_iff hequals).mpr
      ⟨value, (Level.given?_of_diagnostic ha).mp hgiven⟩
    rw [((hnone hmarked).cons hword).1] at hwritten
    exact Bool.false_ne_true hwritten
  · intro hmarked
    have hword := hstep.word_ne_mark hmarked
    have hbefore : s.marked = false := Bool.eq_false_iff.mpr fun hs ↦
      Bool.noConfusion ((hstep.marked hs).symm.trans hmarked)
    exact ⟨hword, ((hnone hbefore).cons hword).2⟩

/-- An argument on diagnostics that no option gives is not there after all words of a level. -/
theorem Lacks.foldlM (h : Lacks a s) (ha : a.diagnosticName? = some name)
    (hnone : s.marked = false → NoOption name words)
    (hread : words.foldlM (Scan.word level) s = .ok t) : Lacks a t := by
  induction words generalizing s with
  | nil =>
    obtain rfl := Except.ok.inj hread
    exact h
  | cons word words ih =>
    rw [List.foldlM_cons, bind_eq_ok_iff] at hread
    obtain ⟨u, hword, hrest⟩ := hread
    obtain ⟨hu, hnext⟩ := h.word ha hnone hword
    exact ih hu (fun hmarked ↦ (hnext hmarked).2) hrest

/-- An argument on diagnostics that no option gives is not there before the command either. -/
theorem Lacks.readTop {verb : Verb} {behind : List String} (h : Lacks a s)
    (ha : a.diagnosticName? = some name) (hnone : s.marked = false → NoOption name words)
    (hread : CommandLine.readTop s words = .ok (t, some (verb, behind))) :
    Lacks a t ∧ NoOption name behind := by
  induction words generalizing s with
  | nil => cases hread
  | cons word words ih =>
    rcases readTop_cons_cases hread with ⟨hmarked, -, verb, rfl, hresult⟩ | ⟨-, u, hword, hrest⟩
    · obtain ⟨rfl, hcommand⟩ := Prod.mk.inj hresult
      obtain ⟨rfl, rfl⟩ := Prod.mk.inj (Option.some.inj hcommand)
      have hne : verb.name ≠ "--" := by cases verb <;> decide
      exact ⟨h, ((hnone hmarked).cons hne).2⟩
    · obtain ⟨hu, hnext⟩ := h.word ha hnone hword
      exact ih hu (fun hmarked ↦ (hnext hmarked).2) hrest

theorem Lacks.start (ha : a.diagnosticName? = some name) (level : Level) :
    Lacks a (.start level) := by
  refine ⟨rfl, fun _ _ hp ↦ (Option.some_ne_none _ hp.symm).elim, ?_⟩
  cases a <;> cases ha <;> rcases level with _ | _ | _ | _ | _ | _ | _ <;> decide

end Scan

/-! ### The laws -/

/-- A flag that is given has the empty text. -/
theorem Level.accepts_of_flag {level : Level} {chars : List Char} {a : Arg}
    (h : level.long? chars = some (.flag a)) : a.accepts "" = true := by
  obtain ⟨known, hknown, hflag⟩ := Option.map_eq_some_iff.mp h
  have hall : ∀ level : Level, ∀ known ∈ level.ownOptions ++ commonOptions, ∀ a,
      known.2 = .flag a → a.accepts "" = true := by
    rintro (_ | _ | _ | _ | _ | _ | _) <;> simp [ownOptions, commonOptions, Arg.accepts]
  exact hall level known (List.mem_of_find?_eq_some hknown) a hflag

section Laws

variable {env : Environment} {words : List String} {m : Matches}

/-- What the words of a line give can be completed. -/
theorem scanLine_of_scanGiven (hgiven : scanGiven words = .ok m) (hsuits : env.Suits m)
    (hrequired : ∀ a ∈ m.verb.required, ((m.completed env).value? a).isSome) :
    scanLine env words = .ok (m.completed env) := by
  obtain ⟨top, verb, behind, below, givenTop, givenBelow, htop, hbelow, hsettle, hsettleTop, rfl⟩ :=
    scanGiven_eq_ok_iff.mp hgiven
  have hordinary {a : Arg} (ha : a.isDiagnostic = false) :
      (bothLevels verb givenTop givenBelow).value? a = givenBelow.value? a :=
    if_neg (by rw [ha]; exact Bool.false_ne_true)
  obtain ⟨takenBelow, hallBelow⟩ : ∃ taken,
      (Level.below verb).fromEnvironment.foldlM (Scan.takeFrom env) givenBelow = .ok taken := by
    refine Scan.exists_takeAll fun a ha hnone text hset ↦ hsuits a ha ?_ text hset
    cases hkind : a.isDiagnostic with
    | true => exact Or.inr rfl
    | false => exact Or.inl ((hordinary hkind).trans hnone)
  obtain ⟨takenTop, hallTop⟩ : ∃ taken,
      Level.top.fromEnvironment.foldlM (Scan.takeFrom env) givenTop = .ok taken := by
    have hcommon : ∀ a ∈ Level.top.fromEnvironment,
        a ∈ (Level.below verb).fromEnvironment ∧ a.isDiagnostic = true := by
      cases verb <;> decide
    exact Scan.exists_takeAll fun a ha _ text hset ↦
      hsuits a (hcommon a ha).1 (Or.inr (hcommon a ha).2) text hset
  have hdemand : takenBelow.demand verb = .ok () := by
    refine Scan.demand_eq_ok_iff.mpr fun a ha ↦ ?_
    obtain ⟨hkind, hdefault⟩ := Verb.ordinary_of_mem_required ha
    have hsome := hrequired a ha
    rw [Matches.completed] at hsome
    dsimp only at hsome
    rw [hordinary hkind, hdefault, Option.or_none] at hsome
    rw [Scan.value?_of_takeAll hallBelow]
    exact hsome
  exact scanLine_eq_ok_iff.mpr ⟨top, verb, behind, below, givenBelow, takenBelow, givenTop,
    takenTop, htop, hbelow, Scan.finish_eq_ok_iff.mpr ⟨hsettle, hallBelow⟩, hdemand,
    Scan.finish_eq_ok_iff.mpr ⟨hsettleTop, hallTop⟩, rfl⟩

/-- An argument on diagnostics that neither a word nor the environment gives has its default. -/
theorem value?_of_noOption {a : Arg} {name : String} (hread : scanLine env words = .ok m)
    (ha : a.diagnosticName? = some name) (hnone : NoOption name words)
    (hunset : env.value? a = none) : m.value? a = a.default? := by
  obtain ⟨top, verb, behind, below, givenBelow, takenBelow, givenTop, takenTop, htop, hbelow,
    hfinishBelow, -, hfinishTop, rfl⟩ := scanLine_eq_ok_iff.mp hread
  obtain ⟨hlacksTop, hbehind⟩ := (Scan.Lacks.start ha .top).readTop ha (fun _ ↦ hnone) htop
  have hlacksBelow :=
    (Scan.Lacks.start ha (.below verb)).foldlM ha (fun _ ↦ hbehind) hbelow
  have hgivenTop := hlacksTop.settle (Scan.finish_eq_ok_iff.mp hfinishTop).1
  have hgivenBelow := hlacksBelow.settle (Scan.finish_eq_ok_iff.mp hfinishBelow).1
  have hdiagnostic : a.isDiagnostic = true := by rw [Arg.isDiagnostic, ha, Option.isSome_some]
  rw [Matches.completed, bothLevels]
  dsimp only
  rw [if_pos hdiagnostic, hgivenBelow.settled, hgivenTop.settled, hunset, ite_self,
    Option.or_none, Option.or_none, Option.none_or]

/-- The scanner is a lawful parser. -/
theorem scanner_lawful : scanner.Lawful where
  command verb := scanGiven_name_eq_ok_iff.mpr ⟨_, _, rfl, rfl, rfl⟩
  placed _ _ hplaces haccepts := scanGiven_placed hplaces haccepts
  flag verb words settings name a hgiven hoption hnew := by
    refine scanGiven_option hgiven hnew ?_
    rw [Scan.word_of_flag rfl rfl hoption]
    refine Scan.record_eq_ok_iff.mpr ⟨rfl, Level.accepts_of_flag hoption, rfl⟩
  attached verb words settings name a text hgiven hoption hnew haccepts := by
    refine scanGiven_option hgiven hnew ?_
    rw [Scan.word_of_valued rfl rfl hoption]
    exact Scan.record_eq_ok_iff.mpr ⟨rfl, haccepts, rfl⟩
  before _ _ _ _ _ _ hgiven ha hnew haccepts := scanGiven_before hgiven ha hnew haccepts
  completes _ _ _ hgiven hsuits hrequired := scanLine_of_scanGiven hgiven hsuits hrequired
  defaults _ _ _ _ _ hread ha hnone hunset := value?_of_noOption hread ha hnone hunset

end Laws

end RoleKey.CommandLine
