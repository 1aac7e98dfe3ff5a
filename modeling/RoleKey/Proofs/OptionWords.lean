import RoleKey.CommandLine.Scanner
import RoleKey.Proofs.Outcomes
import Mathlib.Data.List.TakeWhile

/-!
Options as words, and what reading one of them does.

`optionWord` writes an option by its long name, with a value behind `=` or without one. A word has
the form of an option exactly if it is written so (`Word.of_eq_long_iff`), where the name ends at
the first `=` and the value is whatever stands behind. With nothing held back, reading an option
settles one argument (`Scan.word_of_valued`, `Scan.word_of_flag`), which succeeds exactly if the
argument is new and can have the value (`Scan.record_eq_ok_iff`). Taking arguments from the
environment changes none that was given (`Scan.value?_of_takeAll`) and succeeds if what is taken are
values that the arguments can have (`Scan.exists_takeAll`). A whole line is read exactly if the
words before the command and behind it are, and both levels can be finished (`scanLine_eq_ok_iff`).
-/

set_option autoImplicit false
set_option relaxedAutoImplicit false

namespace RoleKey.CommandLine

/-! ### Words -/

theorem toList_optionWord (name : String) (value : Option String) :
    (optionWord name value).toList = '-' :: '-' :: (name.toList ++ attachedChars value) := by
  simp [optionWord]

theorem takeWhile_append_attachedChars {name : List Char} (hname : '=' ∉ name)
    (value : Option String) :
    (name ++ attachedChars value).takeWhile (fun c ↦ c != '=') = name := by
  induction name with
  | nil => cases value <;> simp [attachedChars]
  | cons c name ih =>
    rw [List.mem_cons, not_or] at hname
    rw [List.cons_append, List.takeWhile_cons_of_pos (by simpa using Ne.symm hname.1), ih hname.2]

theorem behindEquals_append_attachedChars {name : List Char} (hname : '=' ∉ name)
    (value : Option String) : behindEquals (name ++ attachedChars value) = value := by
  induction name with
  | nil => cases value <;> simp [attachedChars, behindEquals]
  | cons c name ih =>
    rw [List.mem_cons, not_or] at hname
    have hskip : behindEquals (c :: (name ++ attachedChars value)) =
        behindEquals (name ++ attachedChars value) := by
      rw [behindEquals, List.dropWhile_cons_of_pos (by simpa using Ne.symm hname.1), behindEquals]
    rw [List.cons_append, hskip, ih hname.2]

/-- A text is the part in front of its first `=` and the value behind it. -/
theorem takeWhile_append_behindEquals (s : List Char) :
    s.takeWhile (fun c ↦ c != '=') ++ attachedChars (behindEquals s) = s := by
  induction s with
  | nil => rfl
  | cons c s ih =>
    by_cases hc : c = '='
    · simp [hc, behindEquals, attachedChars]
    · have hpos : (c != '=') = true := by simpa using hc
      simp only [behindEquals, List.takeWhile_cons, List.dropWhile_cons, hpos, if_true,
        List.cons_append]
      exact congrArg (c :: ·) ih

theorem not_mem_takeWhile_equals (s : List Char) : '=' ∉ s.takeWhile (fun c ↦ c != '=') :=
  fun h ↦ absurd (List.mem_takeWhile_imp h) (by simp)

/-- A word has the form of an option exactly if it is one that was written. -/
theorem Word.of_eq_long_iff {text : String} {name : List Char} {value : Option String} :
    Word.of text = .long name value ↔
      text = optionWord (String.ofList name) value ∧ '=' ∉ name ∧ (name ≠ [] ∨ value ≠ none) := by
  constructor
  · intro h
    unfold Word.of at h
    split at h
    · cases h
    · rename_i rest hrest htext
      obtain ⟨rfl, rfl⟩ := Word.long.inj h
      refine ⟨?_, not_mem_takeWhile_equals rest, ?_⟩
      · rw [← String.toList_inj, htext, toList_optionWord, String.toList_ofList,
          takeWhile_append_behindEquals]
      · by_contra hnone
        rw [not_or, not_ne_iff, not_ne_iff] at hnone
        have hempty := takeWhile_append_behindEquals rest
        rw [hnone.1, hnone.2] at hempty
        exact hrest hempty.symm
    · cases h
    · cases h
  · rintro ⟨rfl, hname, hsome⟩
    have hne : name ++ attachedChars value ≠ [] := by
      rcases hsome with h | h
      · exact List.append_ne_nil_of_left_ne_nil h _
      · obtain ⟨text, rfl⟩ := Option.ne_none_iff_exists'.mp h
        exact List.append_ne_nil_of_right_ne_nil _ (List.cons_ne_nil _ _)
    rw [Word.of, toList_optionWord, String.toList_ofList]
    split
    · rename_i h
      exact absurd (List.cons.inj (List.cons.inj h).2).2 hne
    · rename_i rest _ h
      obtain rfl : name ++ attachedChars value = rest := (List.cons.inj (List.cons.inj h).2).2
      rw [takeWhile_append_attachedChars hname, behindEquals_append_attachedChars hname]
    · rename_i hletter h
      exact (hletter (List.cons.inj (List.cons.inj h).2).1.symm).elim
    · rename_i h
      exact absurd rfl (h _ _)

/-- A word is the mark exactly if it is `--`. -/
theorem Word.of_eq_mark_iff {text : String} : Word.of text = .mark ↔ text = "--" := by
  constructor
  · intro h
    unfold Word.of at h
    split at h
    · rename_i htext
      rw [← String.toList_inj, htext]
      rfl
    all_goals cases h
  · rintro rfl
    rfl

/-- The names of the options of any level have no `=` in them and are not empty. -/
theorem Level.name_of_long? {level : Level} {name : List Char} {option : Switch}
    (h : level.long? name = some option) : '=' ∉ name ∧ name ≠ [] := by
  obtain ⟨known, hknown, -⟩ := Option.map_eq_some_iff.mp h
  have hname : known.1.toList = name := by simpa using List.find?_some hknown
  have hall : ∀ level : Level, ∀ known ∈ level.ownOptions ++ commonOptions,
      '=' ∉ known.1.toList ∧ known.1.toList ≠ [] := by
    rintro (_ | _ | _ | _ | _ | _ | _) <;> decide
  rw [← hname]
  exact hall level known (List.mem_of_find?_eq_some hknown)

/-! ### Settling one argument -/

namespace Scan

variable {s t : Scan} {level : Level} {a : Arg} {text : String}

/-- An occurrence is settled exactly if its argument is new and can have the value. -/
theorem record_eq_ok_iff :
    s.record a text = .ok t ↔
      s.value? a = none ∧ a.accepts text = true ∧
        t = { s with settled := (a, text) :: s.settled } := by
  unfold record
  cases hvalue : s.value? a with
  | some given => simp
  | none =>
    cases haccepts : a.accepts text with
    | false => simp
    | true => simpa using eq_comm

theorem value?_record (h : s.record a text = .ok t) (b : Arg) :
    t.value? b = if b = a then some text else s.value? b := by
  obtain ⟨-, -, rfl⟩ := record_eq_ok_iff.mp h
  rw [value?, List.lookup_cons]
  by_cases hb : b = a
  · rw [if_pos hb, beq_iff_eq.mpr hb]
  · rw [if_neg hb, beq_eq_false_iff_ne.mpr hb, value?]

theorem settle_of_pending_eq_none (h : s.pending = none) : s.settle = .ok s := by
  rw [settle, h]

/-- With nothing held back, an option with a value attached is settled at once. -/
theorem word_of_valued {name : String} (hmarked : s.marked = false) (hpending : s.pending = none)
    (hoption : level.long? name.toList = some (.valued a)) :
    s.word level (optionWord name (some text)) = s.record a text := by
  obtain ⟨hname, hne⟩ := Level.name_of_long? hoption
  have hword : Word.of (optionWord name (some text)) = .long name.toList (some text) :=
    Word.of_eq_long_iff.mpr ⟨by rw [String.ofList_toList], hname, Or.inl hne⟩
  rw [word, hmarked, if_neg Bool.false_ne_true, hword]
  dsimp only
  rw [hoption]
  change s.valued a (some text) = _
  rw [valued, settle_of_pending_eq_none hpending]
  rfl

/-- With nothing held back, a flag is settled at once. -/
theorem word_of_flag {name : String} (hmarked : s.marked = false) (hpending : s.pending = none)
    (hoption : level.long? name.toList = some (.flag a)) :
    s.word level (optionWord name none) = s.record a "" := by
  obtain ⟨hname, hne⟩ := Level.name_of_long? hoption
  have hword : Word.of (optionWord name none) = .long name.toList none :=
    Word.of_eq_long_iff.mpr ⟨by rw [String.ofList_toList], hname, Or.inl hne⟩
  rw [word, hmarked, if_neg Bool.false_ne_true, hword]
  dsimp only
  rw [hoption]
  change (do (← s.settle).record a "") = _
  rw [settle_of_pending_eq_none hpending]
  rfl

/-! ### The environment -/

variable {env : Environment} {args : List Arg}

theorem takeFrom_of_given {given : String} (h : s.value? a = some given) :
    s.takeFrom env a = .ok s := by
  rw [takeFrom, h]

theorem takeFrom_of_unset (h : env.value? a = none) : s.takeFrom env a = .ok s := by
  rw [takeFrom, h]
  cases s.value? a <;> rfl

theorem takeFrom_of_set (h : s.value? a = none) (hset : env.value? a = some text) :
    s.takeFrom env a = s.record a text := by
  rw [takeFrom, h, hset]

/-- An argument is taken from the environment unless it was given or is not set there, and then it
has to be able to have that value. -/
theorem takeFrom_cases (h : s.takeFrom env a = .ok t) :
    (t = s ∧ ((s.value? a).isSome ∨ env.value? a = none)) ∨
      ∃ text, env.value? a = some text ∧ s.record a text = .ok t := by
  cases hvalue : s.value? a with
  | some given =>
    rw [takeFrom_of_given hvalue] at h
    exact Or.inl ⟨(Except.ok.inj h).symm, Or.inl rfl⟩
  | none =>
    cases hset : env.value? a with
    | none =>
      rw [takeFrom_of_unset hset] at h
      exact Or.inl ⟨(Except.ok.inj h).symm, Or.inr rfl⟩
    | some text => exact Or.inr ⟨text, rfl, takeFrom_of_set hvalue hset ▸ h⟩

theorem value?_of_takeFrom (h : s.takeFrom env a = .ok t) (b : Arg) :
    t.value? b = (s.value? b).or (if b = a then env.value? b else none) := by
  rcases takeFrom_cases h with ⟨rfl, hgiven⟩ | ⟨text, hset, hrecord⟩
  · by_cases hb : b = a
    · subst hb
      rcases hgiven with hgiven | hunset
      · rw [Option.or_of_isSome hgiven]
      · rw [if_pos rfl, hunset, Option.or_none]
    · rw [if_neg hb, Option.or_none]
  · rw [value?_record hrecord]
    by_cases hb : b = a
    · subst hb
      rw [if_pos rfl, if_pos rfl, (record_eq_ok_iff.mp hrecord).1, Option.none_or, hset]
    · rw [if_neg hb, if_neg hb, Option.or_none]

/-- What arguments have after the environment was asked for some of them. -/
theorem value?_of_takeAll (h : args.foldlM (takeFrom env) s = .ok t) (b : Arg) :
    t.value? b = (s.value? b).or (if b ∈ args then env.value? b else none) := by
  induction args generalizing s with
  | nil =>
    obtain rfl : s = t := Except.ok.inj h
    simp
  | cons a args ih =>
    rw [List.foldlM_cons, bind_eq_ok_iff] at h
    obtain ⟨u, hfirst, hrest⟩ := h
    rw [ih hrest, value?_of_takeFrom hfirst, Option.or_assoc]
    by_cases ha : b = a
    · subst ha
      by_cases hargs : b ∈ args <;> simp [hargs]
    · simp [ha]

/-- What is taken from the environment is a value that the argument can have. -/
theorem accepts_of_takeAll (h : args.foldlM (takeFrom env) s = .ok t) (ha : a ∈ args)
    (hnew : s.value? a = none) (hset : env.value? a = some text) : a.accepts text = true := by
  induction args generalizing s with
  | nil => exact absurd ha List.not_mem_nil
  | cons first args ih =>
    rw [List.foldlM_cons, bind_eq_ok_iff] at h
    obtain ⟨u, hfirst, hrest⟩ := h
    by_cases hsame : a = first
    · subst hsame
      rw [takeFrom_of_set hnew hset] at hfirst
      exact (record_eq_ok_iff.mp hfirst).2.1
    · have hstill : u.value? a = none := by
        rw [value?_of_takeFrom hfirst, hnew, if_neg hsame, Option.or_none]
      exact ih hrest ((List.mem_cons.mp ha).resolve_left hsame) hstill

/-- Arguments are taken from the environment if it has for those that were not given only values
that they can have. -/
theorem exists_takeAll (haccepts : ∀ a ∈ args, s.value? a = none → ∀ text,
    env.value? a = some text → a.accepts text = true) :
    ∃ t, args.foldlM (takeFrom env) s = .ok t := by
  induction args generalizing s with
  | nil => exact ⟨s, rfl⟩
  | cons a args ih =>
    obtain ⟨u, hfirst⟩ : ∃ u, s.takeFrom env a = .ok u := by
      cases hvalue : s.value? a with
      | some given => exact ⟨s, takeFrom_of_given hvalue⟩
      | none =>
        cases hset : env.value? a with
        | none => exact ⟨s, takeFrom_of_unset hset⟩
        | some text =>
          exact ⟨_, takeFrom_of_set hvalue hset ▸ record_eq_ok_iff.mpr
            ⟨hvalue, haccepts a List.mem_cons_self hvalue text hset, rfl⟩⟩
    obtain ⟨t, hrest⟩ := ih (s := u) fun b hb hnew text hset ↦ by
      have hvalue := value?_of_takeFrom hfirst b
      rw [hnew] at hvalue
      have hbefore := (Option.or_eq_none_iff.mp hvalue.symm).1
      exact haccepts b (List.mem_cons_of_mem _ hb) hbefore text hset
    exact ⟨t, by rw [List.foldlM_cons, bind_eq_ok_iff]; exact ⟨u, hfirst, hrest⟩⟩

/-- A level is finished by settling what is held back and then asking the environment. -/
theorem finish_eq_ok_iff {given taken : Scan} :
    s.finish env level = .ok (given, taken) ↔
      s.settle = .ok given ∧ level.fromEnvironment.foldlM (takeFrom env) given = .ok taken := by
  rw [finish, bind_eq_ok_iff]
  constructor
  · rintro ⟨first, hsettle, hrest⟩
    rw [bind_eq_ok_iff] at hrest
    obtain ⟨second, htaken, hpair⟩ := hrest
    obtain ⟨rfl, rfl⟩ := Prod.mk.inj (Except.ok.inj hpair)
    exact ⟨hsettle, htaken⟩
  · rintro ⟨hsettle, htaken⟩
    refine ⟨given, hsettle, ?_⟩
    rw [htaken]
    rfl

end Scan

/-! ### The whole line -/

section Line

variable {env : Environment} {words : List String} {m : Matches}

theorem Scan.demand_eq_ok_iff {s : Scan} {verb : Verb} :
    s.demand verb = .ok () ↔ ∀ a ∈ verb.required, (s.value? a).isSome := by
  rw [Scan.demand, ← List.all_eq_true]
  split_ifs with h <;> simp [h]

/-- The words of a line give something exactly if those before the command and those behind it can
be read and settled. -/
theorem scanGiven_eq_ok_iff :
    scanGiven words = .ok m ↔
      ∃ top verb behind below givenTop givenBelow,
        readTop (.start .top) words = .ok (top, some (verb, behind)) ∧
        readBelow verb behind = .ok below ∧
        below.settle = .ok givenBelow ∧ top.settle = .ok givenTop ∧
        m = bothLevels verb givenTop givenBelow := by
  rw [scanGiven, bind_eq_ok_iff]
  constructor
  · rintro ⟨⟨top, _ | ⟨verb, behind⟩⟩, htop, hread⟩
    · cases hread
    · obtain ⟨below, hbelow, hread⟩ := bind_eq_ok_iff.mp hread
      obtain ⟨givenBelow, hsettle, hread⟩ := bind_eq_ok_iff.mp hread
      obtain ⟨givenTop, hsettleTop, hread⟩ := bind_eq_ok_iff.mp hread
      exact ⟨top, verb, behind, below, givenTop, givenBelow, htop, hbelow, hsettle, hsettleTop,
        (Except.ok.inj hread).symm⟩
  · rintro ⟨top, verb, behind, below, givenTop, givenBelow, htop, hbelow, hsettle, hsettleTop, rfl⟩
    exact ⟨_, htop, bind_eq_ok_iff.mpr ⟨_, hbelow, bind_eq_ok_iff.mpr ⟨_, hsettle,
      bind_eq_ok_iff.mpr ⟨_, hsettleTop, rfl⟩⟩⟩⟩

/-- A line comes to something exactly if the words before and behind a command can be read, both
levels can be finished, and the lower one has what the command cannot do without. -/
theorem scanLine_eq_ok_iff :
    scanLine env words = .ok m ↔
      ∃ top verb behind below givenBelow takenBelow givenTop takenTop,
        readTop (.start .top) words = .ok (top, some (verb, behind)) ∧
        readBelow verb behind = .ok below ∧
        below.finish env (.below verb) = .ok (givenBelow, takenBelow) ∧
        takenBelow.demand verb = .ok () ∧
        top.finish env .top = .ok (givenTop, takenTop) ∧
        m = (bothLevels verb givenTop givenBelow).completed env := by
  rw [scanLine, bind_eq_ok_iff]
  constructor
  · rintro ⟨⟨top, _ | ⟨verb, behind⟩⟩, htop, hread⟩
    · obtain ⟨_, -, hstop⟩ := bind_eq_ok_iff.mp hread
      cases hstop
    · obtain ⟨below, hbelow, hread⟩ := bind_eq_ok_iff.mp hread
      obtain ⟨⟨givenBelow, takenBelow⟩, hfinish, hread⟩ := bind_eq_ok_iff.mp hread
      obtain ⟨⟨⟩, hdemand, hread⟩ := bind_eq_ok_iff.mp hread
      obtain ⟨⟨givenTop, takenTop⟩, hfinishTop, hread⟩ := bind_eq_ok_iff.mp hread
      exact ⟨top, verb, behind, below, givenBelow, takenBelow, givenTop, takenTop, htop, hbelow,
        hfinish, hdemand, hfinishTop, (Except.ok.inj hread).symm⟩
  · rintro ⟨top, verb, behind, below, givenBelow, takenBelow, givenTop, takenTop, htop, hbelow,
      hfinish, hdemand, hfinishTop, rfl⟩
    exact ⟨_, htop, bind_eq_ok_iff.mpr ⟨_, hbelow, bind_eq_ok_iff.mpr ⟨_, hfinish,
      bind_eq_ok_iff.mpr ⟨_, hdemand, bind_eq_ok_iff.mpr ⟨_, hfinishTop, rfl⟩⟩⟩⟩⟩

/-- An invocation is made of a request, a level and a format. -/
theorem Matches.invocation_eq_ok_iff {i : Invocation} :
    m.invocation = .ok i ↔ m.request = .ok i.request ∧ m.text .logLevel = .ok i.logLevel ∧
      m.named .logFormat Diagnostics.Format.ofName? = .ok i.logFormat := by
  rw [invocation, bind_eq_ok_iff]
  constructor
  · rintro ⟨request, hrequest, hread⟩
    obtain ⟨level, hlevel, hread⟩ := bind_eq_ok_iff.mp hread
    obtain ⟨format, hformat, hread⟩ := bind_eq_ok_iff.mp hread
    obtain rfl := Except.ok.inj hread
    exact ⟨hrequest, hlevel, hformat⟩
  · rintro ⟨hrequest, hlevel, hformat⟩
    exact ⟨_, hrequest, bind_eq_ok_iff.mpr ⟨_, hlevel, bind_eq_ok_iff.mpr ⟨_, hformat, rfl⟩⟩⟩

theorem Verb.ofName?_name (verb : Verb) : ofName? verb.name = some verb := by
  cases verb <;> decide

/-- A word that begins with a dash is no command. -/
theorem isCommandWord_of_dash {word : String} {rest : List Char} (h : word.toList = '-' :: rest) :
    isCommandWord word = false := by
  have hverb : Verb.ofName? word = none := by
    refine List.find?_eq_none.mpr fun verb _ hname ↦ ?_
    rw [← eq_of_beq hname] at h
    cases verb <;> exact absurd (List.cons.inj h).1 (by decide)
  have hhelp : (word == helpWord) = false := by
    refine beq_eq_false_iff_ne.mpr fun hword ↦ ?_
    rw [hword] at h
    exact absurd (List.cons.inj h).1 (by decide)
  rw [isCommandWord, hverb, hhelp]
  rfl

theorem isCommandWord_optionWord (name : String) (value : Option String) :
    isCommandWord (optionWord name value) = false :=
  isCommandWord_of_dash (toList_optionWord name value)

/-- A word that is no command, or stands where no command can come, is read at the top level. -/
theorem readTop_cons {s : Scan} {word : String}
    (h : s.marked = true ∨ s.awaitsValue = true ∨ isCommandWord word = false)
    (words : List String) :
    readTop s (word :: words) = (s.word .top word >>= fun t ↦ readTop t words) := by
  rw [readTop]
  rcases h with h | h | h
  · rw [h]
    rfl
  · rw [h]
    cases s.marked <;> rfl
  · obtain ⟨hverb, hhelp⟩ := Bool.or_eq_false_iff.mp h
    have hnone : Verb.ofName? word = none := by simpa using hverb
    rw [hnone, hhelp, Bool.and_false]
    cases (!s.marked && !s.awaitsValue) <;> rfl

/-- A word that is read at the top level is the name of a command that can come there, or else
leaves the words behind it to be read. -/
theorem readTop_cons_cases {s : Scan} {word : String} {words : List String}
    {result : Scan × Option (Verb × List String)} (h : readTop s (word :: words) = .ok result) :
    (s.marked = false ∧ s.awaitsValue = false ∧
        ∃ verb, verb.name = word ∧ result = (s, some (verb, words))) ∨
      (s.marked = true ∨ s.awaitsValue = true ∨ isCommandWord word = false) ∧
        ∃ t, s.word .top word = .ok t ∧ readTop t words = .ok result := by
  by_cases hplace : s.marked = true ∨ s.awaitsValue = true ∨ isCommandWord word = false
  · rw [readTop_cons hplace, bind_eq_ok_iff] at h
    exact Or.inr ⟨hplace, h⟩
  · rw [not_or, not_or, Bool.not_eq_true, Bool.not_eq_true, Bool.not_eq_false] at hplace
    obtain ⟨hmarked, hawaits, hcommand⟩ := hplace
    refine Or.inl ⟨hmarked, hawaits, ?_⟩
    rw [readTop, hmarked, hawaits] at h
    cases hverb : Verb.ofName? word with
    | some verb =>
      have hname : (verb.name == word) = true :=
        List.find?_some (p := fun v : Verb ↦ v.name == word) hverb
      rw [hverb] at h
      exact ⟨verb, eq_of_beq hname, (Except.ok.inj h).symm⟩
    | none =>
      have hhelp : (word == helpWord) = true := by simpa [isCommandWord, hverb] using hcommand
      rw [hverb, hhelp] at h
      cases h

/-- Where a command can come, its name ends the top level. -/
theorem readTop_name {s : Scan} (hmarked : s.marked = false) (hawaits : s.awaitsValue = false)
    (verb : Verb) (behind : List String) :
    readTop s (verb.name :: behind) = .ok (s, some (verb, behind)) := by
  rw [readTop, hmarked, hawaits, Verb.ofName?_name]
  rfl

end Line

end RoleKey.CommandLine
