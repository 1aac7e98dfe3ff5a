import RoleKey.Proofs.ScannerLaws

/-!
Command lines without their options on diagnostics.

What is left of the words without these options (`withoutDiagnostics`) is read to the end if all of
the words are, and makes the same request (`read_withoutDiagnostics`). This is about the parser of
this program, and no law says it of others. The two readings go side by side: when the words have
led to a state, what is left of them has led to one that follows it (`Scan.Follows`), which is the
same state without the arguments on diagnostics, except that an occurrence may still be held back
that an option on diagnostics has settled. One word more is either read in both or left out in one
(`Scan.Follows.step`); so it is with all words of a level (`Scan.Follows.foldlM`) and with those
before a command (`Scan.Follows.readTop`).
-/

set_option autoImplicit false
set_option relaxedAutoImplicit false

namespace RoleKey.CommandLine

/-! ### States -/

namespace Scan

variable {level : Level} {s t u : Scan} {text : String} {a : Arg}

/-- What has been read, without the arguments on diagnostics. -/
def withoutDiagnostics (s : Scan) : Scan :=
  { s with
    settled := s.settled.filter fun setting ↦ !setting.1.isDiagnostic
    pending := s.pending.filter fun p ↦ !p.arg.isDiagnostic }

theorem value?_withoutDiagnostics (s : Scan) (ha : a.isDiagnostic = false) :
    s.withoutDiagnostics.value? a = s.value? a := by
  unfold value? withoutDiagnostics
  dsimp only
  induction s.settled with
  | nil => rfl
  | cons setting settled ih =>
    obtain ⟨b, text⟩ := setting
    cases hb : b.isDiagnostic with
    | true =>
      have hne : (a == b) = false := beq_eq_false_iff_ne.mpr fun hab ↦ by simp [hab, hb] at ha
      rw [List.filter_cons_of_neg (by simp [hb]), ih, List.lookup_cons, hne]
    | false => rw [List.filter_cons_of_pos (by simp [hb]), List.lookup_cons, List.lookup_cons, ih]

theorem value?_withoutDiagnostics_of_diagnostic (s : Scan) (ha : a.isDiagnostic = true) :
    s.withoutDiagnostics.value? a = none := by
  refine lookup_of_not_mem fun hmem ↦ ?_
  obtain ⟨setting, hsetting, rfl⟩ := List.mem_map.mp hmem
  have hordinary := (List.mem_filter.mp hsetting).2
  rw [ha] at hordinary
  exact Bool.false_ne_true hordinary

/-- Settling an argument that is not on diagnostics does the same without those that are. -/
theorem record_withoutDiagnostics (ha : a.isDiagnostic = false) (h : s.record a text = .ok t) :
    s.withoutDiagnostics.record a text = .ok t.withoutDiagnostics := by
  obtain ⟨hnew, haccepts, rfl⟩ := record_eq_ok_iff.mp h
  refine record_eq_ok_iff.mpr ⟨(value?_withoutDiagnostics s ha).trans hnew, haccepts, ?_⟩
  simp [withoutDiagnostics, ha]

/-- Settling an argument on diagnostics does nothing without those. -/
theorem withoutDiagnostics_of_record (ha : a.isDiagnostic = true) (h : s.record a text = .ok t) :
    t.withoutDiagnostics = s.withoutDiagnostics := by
  obtain ⟨-, -, rfl⟩ := record_eq_ok_iff.mp h
  simp [withoutDiagnostics, ha]

/-- An occurrence that is held back is left out if its argument is on diagnostics. -/
theorem withoutDiagnostics_hold_of_diagnostic (ha : a.isDiagnostic = true) (rest : List Arg)
    (value : Option String) :
    ({ s with pending := some ⟨a, value⟩, positionals := rest } : Scan).withoutDiagnostics =
      { s.withoutDiagnostics with pending := none, positionals := rest } := by
  simp [withoutDiagnostics, Option.filter_some, ha]

theorem withoutDiagnostics_hold (ha : a.isDiagnostic = false) (rest : List Arg)
    (value : Option String) :
    ({ s with pending := some ⟨a, value⟩, positionals := rest } : Scan).withoutDiagnostics =
      { s.withoutDiagnostics with pending := some ⟨a, value⟩, positionals := rest } := by
  simp [withoutDiagnostics, Option.filter_some, ha]

theorem settle_withoutDiagnostics (h : s.settle = .ok u) :
    s.withoutDiagnostics.settle = .ok u.withoutDiagnostics := by
  rcases settle_eq_ok_iff.mp h with ⟨hpending, rfl⟩ | ⟨a, value, hpending, hrecord⟩
  · exact settle_of_pending_eq_none (by simp [withoutDiagnostics, hpending])
  · cases ha : a.isDiagnostic with
    | true =>
      have hnone : s.withoutDiagnostics.pending = none := by simp [withoutDiagnostics, hpending, ha]
      rw [settle_of_pending_eq_none hnone, withoutDiagnostics_of_record ha hrecord]
      simp [withoutDiagnostics, hpending, ha]
    | false =>
      refine settle_eq_ok_iff.mpr (Or.inr ⟨a, value, ?_, record_withoutDiagnostics ha hrecord⟩)
      simp [withoutDiagnostics, hpending, ha]

/-- Whether the next word is the value of an option on diagnostics. -/
def awaitsDiagnostic (s : Scan) : Bool :=
  s.pending.any fun p ↦ p.arg.isDiagnostic && p.value.isNone

theorem awaitsDiagnostic_of_not_awaitsValue (h : s.awaitsValue = false) :
    s.awaitsDiagnostic = false := by
  unfold awaitsValue at h
  unfold awaitsDiagnostic
  rcases hpending : s.pending with _ | ⟨a, _ | value⟩
  · rfl
  · simp [hpending] at h
  · simp

theorem awaitsValue_of_settle (h : s.settle = .ok u) : s.awaitsValue = false :=
  Bool.eq_false_iff.mpr fun hawaits ↦ settle_ne_ok_of_awaitsValue hawaits h

/-- What is left of the words that come, when the options on diagnostics are left out. -/
def remaining (s : Scan) (words : List String) : List String :=
  if s.marked then words else dropDiagnostics s.awaitsDiagnostic words

section Remaining

variable {words : List String}

theorem remaining_of_marked (h : s.marked = true) : s.remaining words = words := if_pos h

theorem remaining_cons_of_kept (hawaits : s.awaitsDiagnostic = false)
    (hmark : Word.of text ≠ .mark) (hother : isDiagnosticOption text = false)
    (hmarked : t.marked = s.marked) (hclear : t.awaitsDiagnostic = false) :
    s.remaining (text :: words) = text :: t.remaining words := by
  rw [remaining, remaining, hmarked, hawaits, hclear]
  cases s.marked with
  | true => rfl
  | false =>
    rw [if_neg Bool.false_ne_true, if_neg Bool.false_ne_true, dropDiagnostics,
      if_neg (mt Word.of_eq_mark_iff.mpr hmark), hother, if_neg Bool.false_ne_true]

theorem remaining_cons_of_dropped (hunmarked : s.marked = false)
    (hawaits : s.awaitsDiagnostic = false)
    (hmark : Word.of text ≠ .mark) (hdiagnostic : isDiagnosticOption text = true)
    (hmarked : t.marked = s.marked) (hnext : t.awaitsDiagnostic = !text.toList.contains '=') :
    s.remaining (text :: words) = t.remaining words := by
  rw [remaining, remaining, hmarked, hunmarked, if_neg Bool.false_ne_true,
    if_neg Bool.false_ne_true, hawaits, hnext, dropDiagnostics,
    if_neg (mt Word.of_eq_mark_iff.mpr hmark), if_pos hdiagnostic]

end Remaining

/-- Where the words without the options on diagnostics lead when all words lead to a state: to the
state without the arguments on diagnostics, perhaps with an occurrence still held back that an
option on diagnostics has settled. -/
structure Follows (s t : Scan) : Prop where
  reaches : t = s.withoutDiagnostics ∨ t.settle = .ok s.withoutDiagnostics
  ordinary : ∀ a ∈ s.positionals, a.isDiagnostic = false

namespace Follows

theorem marked (h : Follows s t) : t.marked = s.marked := by
  rcases h.reaches with rfl | hsettle
  · rfl
  · exact (marked_of_settle hsettle).symm

theorem positionals (h : Follows s t) : t.positionals = s.positionals := by
  rcases h.reaches with rfl | hsettle
  · rfl
  · exact (positionals_of_settle hsettle).symm

theorem settle (h : Follows s t) (hs : s.settle = .ok u) : t.settle = .ok u.withoutDiagnostics := by
  have hwithout := settle_withoutDiagnostics hs
  rcases h.reaches with rfl | hsettle
  · exact hwithout
  · rw [settle_of_pending_eq_none (pending_of_settle hsettle)] at hwithout
    rw [hsettle, hwithout]

theorem eq_of_pending {p : Pending} (h : Follows s t) (hpending : s.pending = some p)
    (hp : p.arg.isDiagnostic = false) : t = s.withoutDiagnostics := by
  refine h.reaches.resolve_right fun hsettle ↦ ?_
  have hnone := pending_of_settle hsettle
  simp [withoutDiagnostics, hpending, hp] at hnone

theorem awaitsValue (h : Follows s t) (hclear : s.awaitsDiagnostic = false) :
    t.awaitsValue = s.awaitsValue := by
  cases hawaits : s.awaitsValue with
  | true =>
    obtain ⟨a, hpending⟩ := awaitsValue_eq_true_iff.mp hawaits
    have ha : a.isDiagnostic = false := by simpa [awaitsDiagnostic, hpending] using hclear
    rw [h.eq_of_pending hpending ha]
    simp [Scan.awaitsValue, withoutDiagnostics, hpending, ha]
  | false =>
    rcases h.reaches with rfl | hsettle
    · unfold Scan.awaitsValue at hawaits ⊢
      rw [withoutDiagnostics]
      dsimp only
      cases hpending : s.pending with
      | none => rfl
      | some p =>
        rw [hpending] at hawaits
        rw [Option.filter_some]
        split
        · exact hawaits
        · rfl
    · exact awaitsValue_of_settle hsettle

/-- Reading the mark leaves everything else. -/
theorem mark (h : Follows s t) : Follows { s with marked := true } { t with marked := true } := by
  refine ⟨?_, h.ordinary⟩
  rcases h.reaches with rfl | hsettle
  · exact Or.inl rfl
  · refine Or.inr ?_
    rcases settle_eq_ok_iff.mp hsettle with ⟨hpending, hsame⟩ | ⟨a, value, hpending, hrecord⟩
    · rw [settle_of_pending_eq_none (show ({ t with marked := true } : Scan).pending = none from
        hpending)]
      exact congrArg (fun u : Scan ↦ Except.ok { u with marked := true }) hsame.symm
    · obtain ⟨hnew, haccepts, hsame⟩ := record_eq_ok_iff.mp hrecord
      refine settle_eq_ok_iff.mpr (Or.inr ⟨a, value, hpending, record_eq_ok_iff.mpr
        ⟨hnew, haccepts, ?_⟩⟩)
      exact congrArg (fun u : Scan ↦ { u with marked := true }) hsame

/-- One word more: it is either read without the options on diagnostics too, or left out. -/
theorem step {next : Scan} (h : Follows s t) (hstep : Step level s text next)
    (hopen : next.marked = true → next.awaitsValue = false) :
    (∃ u, Step level t text u ∧ Follows next u ∧ (s.marked = false → s.awaitsDiagnostic = false) ∧
        ∀ words, s.remaining (text :: words) = text :: next.remaining words) ∨
      Follows next t ∧ s.marked = false ∧
        ∀ words, s.remaining (text :: words) = next.remaining words := by
  cases hstep with
  | mark hmarked hmark =>
    have hclear := awaitsDiagnostic_of_not_awaitsValue (hopen rfl)
    refine Or.inl ⟨_, .mark (h.marked.trans hmarked) hmark, h.mark, fun _ ↦ hclear, fun words ↦ ?_⟩
    rw [remaining, hmarked, if_neg Bool.false_ne_true, show s.awaitsDiagnostic = false from hclear,
      Word.of_eq_mark_iff.mp hmark, dropDiagnostics, if_pos rfl]
    rfl
  | @value a hmarked hplain hpending =>
    have hmark : Word.of text ≠ .mark := by simp [hplain]
    cases ha : a.isDiagnostic with
    | true =>
      have hsame : ({ s with pending := some ⟨a, some text⟩ } : Scan).withoutDiagnostics =
          s.withoutDiagnostics := by
        rw [withoutDiagnostics_hold_of_diagnostic ha]
        simp [withoutDiagnostics, hpending, Option.filter_some, ha]
      refine Or.inr ⟨⟨hsame ▸ h.reaches, h.ordinary⟩, hmarked, fun words ↦ ?_⟩
      simp [remaining, hmarked, awaitsDiagnostic, hpending, ha, dropDiagnostics]
    | false =>
      obtain rfl := h.eq_of_pending hpending ha
      have hclear : s.awaitsDiagnostic = false := by simp [awaitsDiagnostic, hpending, ha]
      have hheld : s.withoutDiagnostics.pending = some ⟨a, none⟩ := by
        simp [withoutDiagnostics, hpending, Option.filter_some, ha]
      refine Or.inl ⟨_, .value hmarked hplain hheld,
        ⟨Or.inl (withoutDiagnostics_hold ha _ _).symm, h.ordinary⟩, fun _ ↦ hclear, fun words ↦ ?_⟩
      exact remaining_cons_of_kept hclear hmark (isDiagnosticOption_of_plain hplain) rfl
        (by simp [awaitsDiagnostic])
  | @place a rest u hplace hpositionals hsettle =>
    have hclear := awaitsDiagnostic_of_not_awaitsValue (awaitsValue_of_settle hsettle)
    have hmarked := marked_of_settle hsettle
    have ha : a.isDiagnostic = false := h.ordinary a (hpositionals ▸ List.mem_cons_self)
    refine Or.inl ⟨_, .place ?_ (h.positionals.trans hpositionals) (h.settle hsettle),
      ⟨Or.inl (withoutDiagnostics_hold ha _ _).symm, fun b hb ↦
        h.ordinary b (hpositionals ▸ List.mem_cons_of_mem _ hb)⟩, fun _ ↦ hclear, fun words ↦ ?_⟩
    · rw [h.marked, h.awaitsValue hclear]
      exact hplace
    · rcases hplace with hread | ⟨hplain, -⟩
      · rw [remaining_of_marked hread, remaining_of_marked]
        exact hmarked.trans hread
      · exact remaining_cons_of_kept hclear (by simp [hplain]) (isDiagnosticOption_of_plain hplain)
          hmarked (by simp [awaitsDiagnostic])
  | @settled a value u _ hmarked hgiven hsettle hrecord =>
    have hclear := awaitsDiagnostic_of_not_awaitsValue (awaitsValue_of_settle hsettle)
    have hkind := isDiagnosticOption_of_given hgiven
    have hsame : next.marked = s.marked ∧ next.positionals = s.positionals ∧
        next.awaitsDiagnostic = false := by
      have hsettled := And.intro (marked_of_settle hsettle) (positionals_of_settle hsettle)
      obtain ⟨-, -, rfl⟩ := record_eq_ok_iff.mp hrecord
      exact ⟨hsettled.1, hsettled.2, by simp [awaitsDiagnostic, pending_of_settle hsettle]⟩
    have hordinary : ∀ b ∈ next.positionals, b.isDiagnostic = false := hsame.2.1.symm ▸ h.ordinary
    cases ha : a.isDiagnostic with
    | true =>
      have hreaches := h.settle hsettle
      rw [← withoutDiagnostics_of_record ha hrecord] at hreaches
      refine Or.inr ⟨⟨Or.inr hreaches, hordinary⟩, hmarked, fun words ↦ ?_⟩
      refine remaining_cons_of_dropped hmarked hclear (Level.ne_mark_of_given hgiven)
        (hkind.trans ha) hsame.1 ?_
      rw [contains_equals_of_diagnostic ha hgiven, hsame.2.2]
      rfl
    | false =>
      refine Or.inl ⟨_, .settled (h.marked.trans hmarked) hgiven (h.settle hsettle)
        (record_withoutDiagnostics ha hrecord), ⟨Or.inl rfl, hordinary⟩, fun _ ↦ hclear,
        fun words ↦ ?_⟩
      exact remaining_cons_of_kept hclear (Level.ne_mark_of_given hgiven) (hkind.trans ha)
        hsame.1 hsame.2.2
  | @opened a u hmarked hgiven hsettle =>
    have hclear := awaitsDiagnostic_of_not_awaitsValue (awaitsValue_of_settle hsettle)
    have hkind := isDiagnosticOption_of_given hgiven
    have hsame := marked_of_settle hsettle
    have hordinary : ∀ b ∈ u.positionals, b.isDiagnostic = false :=
      (positionals_of_settle hsettle).symm ▸ h.ordinary
    cases ha : a.isDiagnostic with
    | true =>
      have hnone : u.withoutDiagnostics.pending = none := by
        simp [withoutDiagnostics, pending_of_settle hsettle]
      refine Or.inr ⟨⟨Or.inr ?_, hordinary⟩, hmarked, fun words ↦ ?_⟩
      · rw [h.settle hsettle, withoutDiagnostics_hold_of_diagnostic ha, ← hnone]
        rfl
      · refine remaining_cons_of_dropped hmarked hclear (Level.ne_mark_of_given hgiven)
          (hkind.trans ha) hsame ?_
        rw [contains_equals_of_diagnostic ha hgiven]
        simp [awaitsDiagnostic, ha]
    | false =>
      refine Or.inl ⟨_, .opened (h.marked.trans hmarked) hgiven (h.settle hsettle),
        ⟨Or.inl (withoutDiagnostics_hold ha _ _).symm, hordinary⟩, fun _ ↦ hclear, fun words ↦ ?_⟩
      exact remaining_cons_of_kept hclear (Level.ne_mark_of_given hgiven) (hkind.trans ha)
        hsame (by simp [awaitsDiagnostic, ha])

/-- Where the mark comes while an option waits for its value, the level cannot be finished. -/
theorem awaitsValue_of_foldlM {words : List String} {final given : Scan}
    (hread : words.foldlM (Scan.word level) s = .ok final) (hsettle : final.settle = .ok given)
    (hmarked : s.marked = true) : s.awaitsValue = false := by
  cases words with
  | nil =>
    obtain rfl := Except.ok.inj hread
    exact awaitsValue_of_settle hsettle
  | cons word words =>
    rw [List.foldlM_cons, bind_eq_ok_iff] at hread
    obtain ⟨u, hword, -⟩ := hread
    cases word_eq_ok_iff_step.mp hword with
    | place _ _ hsettle => exact awaitsValue_of_settle hsettle
    | mark hunmarked => simp [hmarked] at hunmarked
    | value hunmarked => simp [hmarked] at hunmarked
    | settled hunmarked => simp [hmarked] at hunmarked
    | opened hunmarked => simp [hmarked] at hunmarked

/-- All words of a level: those that are left lead where all of them lead. -/
theorem foldlM {words : List String} {final given : Scan} (h : Follows s t)
    (hread : words.foldlM (Scan.word level) s = .ok final) (hsettle : final.settle = .ok given) :
    ∃ u, (s.remaining words).foldlM (Scan.word level) t = .ok u ∧ Follows final u := by
  induction words generalizing s t with
  | nil =>
    obtain rfl := Except.ok.inj hread
    refine ⟨t, ?_, h⟩
    have hnone : s.remaining [] = [] := by
      unfold remaining
      split <;> simp [dropDiagnostics]
    rw [hnone]
    rfl
  | cons word words ih =>
    rw [List.foldlM_cons, bind_eq_ok_iff] at hread
    obtain ⟨next, hword, hrest⟩ := hread
    rcases h.step (word_eq_ok_iff_step.mp hword) (awaitsValue_of_foldlM hrest hsettle) with
      ⟨u, hstep, hnext, -, hkept⟩ | ⟨hnext, -, hdropped⟩
    · obtain ⟨v, hread, hfinal⟩ := ih hnext hrest
      refine ⟨v, ?_, hfinal⟩
      rw [hkept, List.foldlM_cons, bind_eq_ok_iff]
      exact ⟨u, word_eq_ok_iff_step.mpr hstep, hread⟩
    · rw [hdropped]
      exact ih hnext hrest

end Follows

/-- Behind the mark no command can come. -/
theorem command_of_marked {words : List String} {final : Scan}
    {command : Option (Verb × List String)} (hread : readTop s words = .ok (final, command))
    (hmarked : s.marked = true) : command = none := by
  induction words generalizing s with
  | nil => exact ((Prod.mk.inj (Except.ok.inj hread)).2).symm
  | cons word words ih =>
    rcases readTop_cons_cases hread with ⟨hunmarked, -⟩ | ⟨-, u, hword, hrest⟩
    · simp [hmarked] at hunmarked
    · exact ih hrest ((word_eq_ok_iff_step.mp hword).marked hmarked)

/-- The words before a command: those that are left lead to the same command. -/
theorem Follows.readTop {words behind : List String} {final : Scan} {verb : Verb}
    (h : Follows s t) (hread : CommandLine.readTop s words = .ok (final, some (verb, behind))) :
    ∃ u, CommandLine.readTop t (s.remaining words) =
        .ok (u, some (verb, CommandLine.withoutDiagnostics behind)) ∧ Follows final u := by
  induction words generalizing s t with
  | nil => cases hread
  | cons word words ih =>
    rcases readTop_cons_cases hread with ⟨hmarked, hawaits, verb, rfl, hresult⟩ |
      ⟨hplace, next, hword, hrest⟩
    · obtain ⟨rfl, hcommand⟩ := Prod.mk.inj hresult
      obtain ⟨rfl, rfl⟩ := Prod.mk.inj (Option.some.inj hcommand)
      have hclear := awaitsDiagnostic_of_not_awaitsValue hawaits
      have hname : verb.name ≠ "--" ∧ isDiagnosticOption verb.name = false := by
        cases verb <;> decide
      have hleft : final.remaining (verb.name :: behind) =
          verb.name :: CommandLine.withoutDiagnostics behind := by
        rw [remaining, hmarked, if_neg Bool.false_ne_true, hclear, dropDiagnostics,
          if_neg hname.1, hname.2, if_neg Bool.false_ne_true]
        rfl
      rw [hleft]
      exact ⟨t, readTop_name (h.marked.trans hmarked) ((h.awaitsValue hclear).trans hawaits) _ _, h⟩
    · have hunmarked : next.marked = false := Bool.eq_false_iff.mpr fun hmarked ↦
        Option.some_ne_none _ (command_of_marked hrest hmarked)
      rcases h.step (word_eq_ok_iff_step.mp hword) (fun hmarked ↦ by simp [hunmarked] at hmarked)
        with ⟨u, hstep, hnext, hclear, hkept⟩ | ⟨hnext, -, hdropped⟩
      · obtain ⟨v, hread, hfinal⟩ := ih hnext hrest
        refine ⟨v, ?_, hfinal⟩
        rw [hkept, readTop_cons, bind_eq_ok_iff]
        · exact ⟨u, word_eq_ok_iff_step.mpr hstep, hread⟩
        · cases hmarked : s.marked with
          | true => exact Or.inl (h.marked.trans hmarked)
          | false =>
            rw [h.marked, h.awaitsValue (hclear hmarked)]
            exact hplace
      · rw [hdropped]
        exact ih hnext hrest

end Scan

/-! ### The whole line -/

section Line

variable {env : Environment} {words : List String} {i : Invocation}

theorem Scan.Follows.start (level : Level) : Scan.Follows (.start level) (.start level) where
  reaches := Or.inl rfl
  ordinary := by rcases level with _ | _ | _ | _ | _ | _ | _ <;> decide

/-- A request is made of what is not on diagnostics. -/
theorem Matches.request_congr {m n : Matches} (hverb : m.verb = n.verb)
    (h : ∀ a : Arg, a.isDiagnostic = false → m.value? a = n.value? a) : m.request = n.request := by
  have htext (a : Arg) (ha : a.isDiagnostic = false) : m.text a = n.text a := by
    rw [text, text, h a ha]
  have hrole : m.named .role Role.ofName? = n.named .role Role.ofName? := by
    rw [named, named, htext .role rfl]
  rw [request, request, hverb, hrole, h .json rfl, htext .inkey rfl, htext .data rfl,
    htext .key rfl, htext .signature rfl, htext .value rfl]

/-- A level that can be finished can be finished without what is on diagnostics, and everything else
is then the same. -/
theorem Scan.Follows.finish {level : Level} {s t given taken : Scan} (h : Scan.Follows s t)
    (hfinish : s.finish env level = .ok (given, taken)) :
    ∃ taken', t.finish env.withoutDiagnostics level = .ok (given.withoutDiagnostics, taken') ∧
      ∀ a : Arg, a.isDiagnostic = false → taken'.value? a = taken.value? a := by
  obtain ⟨hsettle, hall⟩ := Scan.finish_eq_ok_iff.mp hfinish
  have hpath : ∀ a text, env.withoutDiagnostics.value? a = some text →
      a.isDiagnostic = false ∧ env.value? a = some text := by
    intro a text hset
    cases a <;> first | exact ⟨rfl, hset⟩ | cases hset
  obtain ⟨taken', hall'⟩ : ∃ taken', level.fromEnvironment.foldlM
      (Scan.takeFrom env.withoutDiagnostics) given.withoutDiagnostics = .ok taken' := by
    refine Scan.exists_takeAll fun a ha hnew text hset ↦ ?_
    obtain ⟨hordinary, hset⟩ := hpath a text hset
    rw [Scan.value?_withoutDiagnostics given hordinary] at hnew
    exact Scan.accepts_of_takeAll hall ha hnew hset
  refine ⟨taken', Scan.finish_eq_ok_iff.mpr ⟨h.settle hsettle, hall'⟩, fun a ha ↦ ?_⟩
  rw [Scan.value?_of_takeAll hall, Scan.value?_of_takeAll hall',
    Scan.value?_withoutDiagnostics given ha, env.value?_withoutDiagnostics ha]

/-- A line that comes to something comes to the same without its options on diagnostics and without
what the environment says on them, but that those arguments have their defaults. -/
theorem scanLine_withoutDiagnostics {m : Matches} (h : scanLine env words = .ok m) :
    ∃ n, scanLine env.withoutDiagnostics (withoutDiagnostics words) = .ok n ∧ n.verb = m.verb ∧
      ∀ a : Arg, n.value? a = if a.isDiagnostic then a.default? else m.value? a := by
  obtain ⟨top, verb, behind, below, givenBelow, takenBelow, givenTop, takenTop, htop, hbelow,
    hfinishBelow, hdemand, hfinishTop, rfl⟩ := scanLine_eq_ok_iff.mp h
  obtain ⟨top', htop', hfollowsTop⟩ := (Scan.Follows.start .top).readTop htop
  obtain ⟨below', hbelow', hfollowsBelow⟩ := (Scan.Follows.start (.below verb)).foldlM hbelow
    (Scan.finish_eq_ok_iff.mp hfinishBelow).1
  obtain ⟨takenBelow', hfinishBelow', hsame⟩ := hfollowsBelow.finish hfinishBelow
  obtain ⟨takenTop', hfinishTop', -⟩ := hfollowsTop.finish hfinishTop
  have hdemand' : takenBelow'.demand verb = .ok () := by
    refine Scan.demand_eq_ok_iff.mpr fun a ha ↦ ?_
    rw [hsame a (Verb.ordinary_of_mem_required ha).1]
    exact Scan.demand_eq_ok_iff.mp hdemand a ha
  refine ⟨_, scanLine_eq_ok_iff.mpr ⟨top', verb, _, below', _, takenBelow', _, takenTop', htop',
    hbelow', hfinishBelow', hdemand', hfinishTop', rfl⟩, rfl, fun a ↦ ?_⟩
  rw [Matches.completed, Matches.completed, bothLevels, bothLevels]
  dsimp only
  cases ha : a.isDiagnostic with
  | true =>
    have hunset : env.withoutDiagnostics.value? a = none := by
      cases a <;> first | rfl | cases ha
    rw [if_pos rfl, if_pos rfl, hunset, ite_self,
      Scan.value?_withoutDiagnostics_of_diagnostic givenBelow ha,
      Scan.value?_withoutDiagnostics_of_diagnostic givenTop ha]
    rfl
  | false =>
    rw [if_neg Bool.false_ne_true, if_neg Bool.false_ne_true, if_neg Bool.false_ne_true,
      Scan.value?_withoutDiagnostics givenBelow ha, env.value?_withoutDiagnostics ha]

/-- A line that asks for an invocation asks for the same request without its options on diagnostics
and without what the environment says on them, with the defaults for diagnostics. -/
theorem read_withoutDiagnostics (h : read env words = .ok i) :
    read env.withoutDiagnostics (withoutDiagnostics words) = .ok ⟨i.request, "warn", .pretty⟩ := by
  obtain ⟨m, hm, hinvocation⟩ := bind_eq_ok_iff.mp h
  obtain ⟨n, hn, hverb, hvalue⟩ := scanLine_withoutDiagnostics hm
  have hrequest : n.request = .ok i.request := by
    rw [Matches.request_congr hverb fun a ha ↦ by rw [hvalue, ha, if_neg Bool.false_ne_true]]
    exact (Matches.invocation_eq_ok_iff.mp hinvocation).1
  have hlevel : n.value? .logLevel = some "warn" := hvalue .logLevel
  have hformat : n.value? .logFormat = some Diagnostics.Format.pretty.name := hvalue .logFormat
  exact bind_eq_ok_iff.mpr ⟨n, hn, Matches.invocation_eq_ok_iff.mpr
    ⟨hrequest, Matches.text_of_value? hlevel, Matches.named_of_value? hformat rfl⟩⟩

end Line

end RoleKey.CommandLine
