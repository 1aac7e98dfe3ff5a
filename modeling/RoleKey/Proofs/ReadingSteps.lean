import RoleKey.Proofs.OptionWords

/-!
What reading one word can do.

A word that is read at a level is the mark, the value that an option waits for, a text that is taken
by its place, or an option, which is settled at once or waits for its value. `Scan.Step` has one
constructor for each of these, and a word is read exactly if there is such a step
(`Scan.word_eq_ok_iff_step`); `Level.given?` is the part of a word that needs no state. From the
steps it follows that an argument which no word gives has no value in the end
(`Scan.Lacks.foldlM`).
-/

set_option autoImplicit false
set_option relaxedAutoImplicit false

namespace RoleKey.CommandLine

/-- The argument that an option gives at a level, and its value; without a value it waits for
one. -/
def Level.given? (level : Level) (text : String) : Option (Arg × Option String) :=
  match Word.of text with
  | .long name attached =>
    match level.long? name, attached with
    | some (.valued a), attached => some (a, attached)
    | some (.flag a), none => some (a, some "")
    | _, _ => none
  | .short letter behind =>
    match level.short? letter with
    | some (.valued a) => some (a, attachedToLetter behind)
    | some (.flag a) => some (a, some "")
    | _ => none
  | _ => none

/-- A plain word is read as it is. -/
theorem Word.eq_of_plain {text other : String} (h : Word.of text = .plain other) :
    other = text := by
  unfold Word.of at h
  split at h <;> cases h
  rfl

namespace Scan

/-- What reading a word can come to. -/
inductive Step (level : Level) (s : Scan) (text : String) : Scan → Prop
  | mark (hmarked : s.marked = false) (hmark : Word.of text = .mark) :
      Step level s text { s with marked := true }
  | value {a : Arg} (hmarked : s.marked = false) (hplain : Word.of text = .plain text)
      (hpending : s.pending = some ⟨a, none⟩) :
      Step level s text { s with pending := some ⟨a, some text⟩ }
  | place {a : Arg} {rest : List Arg} {u : Scan}
      (hplace : s.marked = true ∨ Word.of text = .plain text ∧ s.awaitsValue = false)
      (hpositionals : s.positionals = a :: rest) (hsettle : s.settle = .ok u) :
      Step level s text { u with pending := some ⟨a, some text⟩, positionals := rest }
  | settled {a : Arg} {value : String} {u t : Scan} (hmarked : s.marked = false)
      (hgiven : level.given? text = some (a, some value)) (hsettle : s.settle = .ok u)
      (hrecord : u.record a value = .ok t) : Step level s text t
  | opened {a : Arg} {u : Scan} (hmarked : s.marked = false)
      (hgiven : level.given? text = some (a, none)) (hsettle : s.settle = .ok u) :
      Step level s text { u with pending := some ⟨a, none⟩ }

variable {level : Level} {s t u : Scan} {text : String} {a : Arg}

theorem positional_eq_ok_iff :
    s.positional level text = .ok t ↔
      ∃ a rest u, s.positionals = a :: rest ∧ s.settle = .ok u ∧
        t = { u with pending := some ⟨a, some text⟩, positionals := rest } := by
  unfold positional
  cases hpositionals : s.positionals with
  | nil => simp
  | cons a rest =>
    dsimp only
    rw [bind_eq_ok_iff]
    constructor
    · rintro ⟨u, hsettle, hread⟩
      exact ⟨a, rest, u, rfl, hsettle, (Except.ok.inj hread).symm⟩
    · rintro ⟨b, others, u, hsame, hsettle, rfl⟩
      obtain ⟨rfl, rfl⟩ := List.cons.inj hsame
      exact ⟨u, hsettle, rfl⟩

theorem valued_eq_ok_iff {attached : Option String} :
    s.valued a attached = .ok t ↔
      ∃ u, s.settle = .ok u ∧
        ((∃ value, attached = some value ∧ u.record a value = .ok t) ∨
          attached = none ∧ t = { u with pending := some ⟨a, none⟩ }) := by
  rw [valued, bind_eq_ok_iff]
  refine exists_congr fun u ↦ and_congr_right fun _ ↦ ?_
  cases attached with
  | none =>
    change Except.ok _ = Except.ok t ↔ _
    simpa using eq_comm
  | some value => simp

/-- The words that options are written as give arguments, and no others are read as options. -/
theorem switch_eq_ok_iff {option : Switch} {attached : Option String} :
    s.switch level option attached = .ok t ↔
      (∃ a, option = .valued a ∧ s.valued a attached = .ok t) ∨
        ∃ a, option = .flag a ∧ attached = none ∧ s.valued a (some "") = .ok t := by
  cases option with
  | valued a => simp [switch]
  | flag a => cases attached <;> simp [switch, valued]
  | help =>
    cases attached with
    | none => cases hsettle : s.settle <;> simp [switch, hsettle] <;> rintro ⟨⟩
    | some value => simp [switch]
  | version =>
    cases attached with
    | none => cases hsettle : s.settle <;> simp [switch, hsettle] <;> rintro ⟨⟩
    | some value => simp [switch]

/-- An option that stands where options are read gives its argument. -/
theorem word_of_option (hmarked : s.marked = false) (hmark : Word.of text ≠ .mark)
    (hplain : Word.of text ≠ .plain text) :
    s.word level text = .ok t ↔
      ∃ a value, level.given? text = some (a, value) ∧ s.valued a value = .ok t := by
  rw [word, hmarked, if_neg Bool.false_ne_true, Level.given?]
  cases hword : Word.of text with
  | mark => exact absurd hword hmark
  | plain other => exact absurd (Word.eq_of_plain hword ▸ hword) hplain
  | long name attached =>
    dsimp only
    cases level.long? name with
    | none => simp
    | some option =>
      dsimp only
      rw [switch_eq_ok_iff]
      cases option <;> cases attached <;> simp [and_assoc]
  | short letter behind =>
    dsimp only
    cases level.short? letter with
    | none => simp
    | some option =>
      cases option <;> simp [switch_eq_ok_iff, and_assoc]

theorem plain_of_not_awaitsValue (h : s.awaitsValue = false) :
    s.plain level text = s.positional level text := by
  unfold plain
  split
  · rename_i hpending
    rw [awaitsValue, hpending] at h
    cases h
  · rfl

theorem awaitsValue_eq_true_iff : s.awaitsValue = true ↔ ∃ a, s.pending = some ⟨a, none⟩ := by
  rw [awaitsValue]
  rcases s.pending with _ | ⟨a, _ | value⟩ <;> simp

/-- A word is read exactly if there is a step. -/
theorem word_eq_ok_iff_step : s.word level text = .ok t ↔ Step level s text t := by
  constructor
  · intro h
    cases hmarked : s.marked with
    | true =>
      rw [word, hmarked, if_pos rfl] at h
      obtain ⟨a, rest, u, hpositionals, hsettle, rfl⟩ := positional_eq_ok_iff.mp h
      exact .place (Or.inl hmarked) hpositionals hsettle
    | false =>
      by_cases hmark : Word.of text = .mark
      · rw [word, hmarked, if_neg Bool.false_ne_true, hmark] at h
        obtain rfl := Except.ok.inj h
        exact .mark hmarked hmark
      by_cases hplain : Word.of text = .plain text
      · have hread : s.plain level text = .ok t := by
          rwa [word, hmarked, if_neg Bool.false_ne_true, hplain] at h
        cases hawaits : s.awaitsValue with
        | true =>
          obtain ⟨a, hpending⟩ := awaitsValue_eq_true_iff.mp hawaits
          rw [plain, hpending] at hread
          obtain rfl := Except.ok.inj hread
          exact .value hmarked hplain hpending
        | false =>
          rw [plain_of_not_awaitsValue hawaits] at hread
          obtain ⟨a, rest, u, hpositionals, hsettle, rfl⟩ := positional_eq_ok_iff.mp hread
          exact .place (Or.inr ⟨hplain, hawaits⟩) hpositionals hsettle
      · obtain ⟨a, value, hgiven, hvalued⟩ := (word_of_option hmarked hmark hplain).mp h
        obtain ⟨u, hsettle, ⟨text, rfl, hrecord⟩ | ⟨rfl, rfl⟩⟩ := valued_eq_ok_iff.mp hvalued
        · exact .settled hmarked hgiven hsettle hrecord
        · exact .opened hmarked hgiven hsettle
  · intro h
    have hoption {given : Arg × Option String} (hgiven : level.given? text = some given) :
        Word.of text ≠ .mark ∧ Word.of text ≠ .plain text := by
      constructor <;> intro hword <;> rw [Level.given?, hword] at hgiven <;> cases hgiven
    cases h with
    | mark hmarked hmark => simp [word, hmarked, hmark]
    | value hmarked hplain hpending => simp [word, hmarked, hplain, plain, hpending]
    | @place a rest u hplace hpositionals hsettle =>
      have hread : s.positional level text =
          .ok { u with pending := some ⟨a, some text⟩, positionals := rest } :=
        positional_eq_ok_iff.mpr ⟨a, rest, u, hpositionals, hsettle, rfl⟩
      cases hmarked : s.marked with
      | true => rwa [word, hmarked, if_pos rfl]
      | false =>
        obtain ⟨hplain, hawaits⟩ := hplace.resolve_left (by simp [hmarked])
        rw [word, hmarked, if_neg Bool.false_ne_true, hplain]
        exact (plain_of_not_awaitsValue hawaits).trans hread
    | settled hmarked hgiven hsettle hrecord =>
      exact (word_of_option hmarked (hoption hgiven).1 (hoption hgiven).2).mpr
        ⟨_, _, hgiven, valued_eq_ok_iff.mpr ⟨_, hsettle, Or.inl ⟨_, rfl, hrecord⟩⟩⟩
    | opened hmarked hgiven hsettle =>
      exact (word_of_option hmarked (hoption hgiven).1 (hoption hgiven).2).mpr
        ⟨_, _, hgiven, valued_eq_ok_iff.mpr ⟨_, hsettle, Or.inr ⟨rfl, rfl⟩⟩⟩

/-! ### Settling -/

/-- Settling succeeds with nothing held back, or with an occurrence that has its value and can be
settled. -/
theorem settle_eq_ok_iff :
    s.settle = .ok u ↔
      s.pending = none ∧ u = s ∨
        ∃ a value, s.pending = some ⟨a, some value⟩ ∧
          ({ s with pending := none } : Scan).record a value = .ok u := by
  unfold settle
  rcases s.pending with _ | ⟨a, _ | value⟩
  · simpa using eq_comm
  · simp
  · simp [and_assoc]

theorem settle_ne_ok_of_awaitsValue (h : s.awaitsValue = true) : s.settle ≠ .ok u := by
  obtain ⟨a, hpending⟩ := awaitsValue_eq_true_iff.mp h
  rw [settle, hpending]
  simp

/-- Settling holds nothing back afterwards, and leaves the places and the mark as they are. -/
theorem keeps_of_settle (h : s.settle = .ok u) :
    u.pending = none ∧ u.positionals = s.positionals ∧ u.marked = s.marked := by
  rcases settle_eq_ok_iff.mp h with ⟨hpending, rfl⟩ | ⟨a, value, -, hrecord⟩
  · exact ⟨hpending, rfl, rfl⟩
  · obtain ⟨-, -, rfl⟩ := record_eq_ok_iff.mp hrecord
    exact ⟨rfl, rfl, rfl⟩

theorem pending_of_settle (h : s.settle = .ok u) : u.pending = none := (keeps_of_settle h).1

theorem positionals_of_settle (h : s.settle = .ok u) : u.positionals = s.positionals :=
  (keeps_of_settle h).2.1

theorem marked_of_settle (h : s.settle = .ok u) : u.marked = s.marked := (keeps_of_settle h).2.2

/-- Once the mark has been read it stays read. -/
theorem Step.marked (h : Step level s text t) (hmarked : s.marked = true) : t.marked = true := by
  cases h with
  | mark => rfl
  | value => exact hmarked
  | place _ _ hsettle => exact (marked_of_settle hsettle).trans hmarked
  | settled hunmarked => exact absurd hmarked (by simp [hunmarked])
  | opened hunmarked => exact absurd hmarked (by simp [hunmarked])

/-! ### Arguments that are not given -/

/-- Nothing that has been read gives the argument, and it is not taken by its place. -/
structure Lacks (a : Arg) (s : Scan) : Prop where
  settled : s.value? a = none
  pending : ∀ b value, s.pending = some ⟨b, value⟩ → b ≠ a
  positionals : a ∉ s.positionals

namespace Lacks

theorem record {b : Arg} {value : String} (h : Lacks a s) (hne : b ≠ a)
    (hrecord : s.record b value = .ok t) : Lacks a t where
  settled := by rw [value?_record hrecord, if_neg hne.symm, h.settled]
  pending := by
    obtain ⟨-, -, rfl⟩ := record_eq_ok_iff.mp hrecord
    exact h.pending
  positionals := by
    obtain ⟨-, -, rfl⟩ := record_eq_ok_iff.mp hrecord
    exact h.positionals

/-- Holding back an occurrence of another argument does not give this one. -/
theorem hold {b : Arg} (h : Lacks a s) (hne : b ≠ a) (value : Option String) :
    Lacks a { s with pending := some ⟨b, value⟩ } where
  settled := h.settled
  pending := fun _ _ hp ↦ (Pending.mk.inj (Option.some.inj hp)).1 ▸ hne
  positionals := h.positionals

theorem settle (h : Lacks a s) (hsettle : s.settle = .ok u) : Lacks a u := by
  rcases settle_eq_ok_iff.mp hsettle with ⟨-, rfl⟩ | ⟨b, value, hpending, hrecord⟩
  · exact h
  · have hfree : Lacks a { s with pending := none } :=
      ⟨h.settled, fun _ _ hp ↦ (Option.some_ne_none _ hp.symm).elim, h.positionals⟩
    exact hfree.record (h.pending b _ hpending) hrecord

/-- An argument that a word does not give is not there after that word if it was not there
before. -/
theorem step (h : Lacks a s) (hstep : Step level s text t)
    (hgiven : s.marked = false → ∀ value, level.given? text ≠ some (a, value)) : Lacks a t := by
  cases hstep with
  | mark => exact ⟨h.settled, h.pending, h.positionals⟩
  | @value b hmarked hplain hpending => exact h.hold (h.pending b _ hpending) _
  | @place b rest u hplace hpositionals hsettle =>
    have hboth : a ∉ b :: rest := hpositionals ▸ h.positionals
    rw [List.mem_cons, not_or] at hboth
    have hheld := (h.settle hsettle).hold (Ne.symm hboth.1) (some text)
    exact ⟨hheld.settled, hheld.pending, hboth.2⟩
  | @settled b value u t hmarked hoption hsettle hrecord =>
    refine (h.settle hsettle).record (fun hb ↦ ?_) hrecord
    exact hgiven hmarked _ (hb ▸ hoption)
  | @opened b u hmarked hoption hsettle =>
    refine (h.settle hsettle).hold (fun hb ↦ ?_) none
    exact hgiven hmarked _ (hb ▸ hoption)

end Lacks

end Scan

end RoleKey.CommandLine
