import RoleKey.Diagnostics.Filter
import RoleKey.Proofs.SurroundingBlanks

/-!
When the program's reader of filters returns.

Parts of a directive are found in the text without the blanks around it and taken from the text with
them. Where no blank comes first, the two begin alike, so that every part begins and ends between
characters (`slice_append`) and none is severed (`Directive.unsevered_ofText?`). So the reader
returns on every text none of whose directives begins with a blank
(`Filter.returns_of_begins_bare`). Blanks at the end do no harm. Where it gives up, a lawful reader
can do anything; `FilterReader.steady` is one that is the same everywhere else.
-/

set_option autoImplicit false
set_option relaxedAutoImplicit false

namespace RoleKey.Diagnostics

/-! ### Slices between characters -/

theorem width_append (s t : List Char) : width (s ++ t) = width s + width t := by
  induction s with
  | nil => simp [width]
  | cons c s ih => rw [List.cons_append, width, width, ih, Nat.add_assoc]

/-- Behind its first part a text can be cut. -/
theorem splitAtByte?_append (s t : List Char) : splitAtByte? (s ++ t) (width s) = some (s, t) := by
  induction s with
  | nil => cases t <;> rfl
  | cons c s ih =>
    -- A character has a byte at least, so that the place is not the first one.
    obtain ⟨n, hn⟩ := Nat.exists_eq_succ_of_ne_zero (Nat.pos_iff_ne_zero.mp c.utf8Size_pos)
    have hwidth : width (c :: s) = n + width s + 1 := by rw [width, hn]; omega
    have hrest : n + width s + 1 - c.utf8Size = width s := by omega
    rw [hwidth, List.cons_append, splitAtByte?, if_neg (by omega), hrest, ih]
    rfl

theorem sliceFrom_append (s t : List Char) : sliceFrom (s ++ t) (width s) = .ok t := by
  rw [sliceFrom, splitAtByte?_append]

/-- What stands behind one more character of one byte begins between characters. -/
theorem sliceFrom_succ {c : Char} (hc : c.utf8Size = 1) (s t : List Char) :
    sliceFrom (s ++ c :: t) (width s + 1) = .ok t := by
  have h := sliceFrom_append (s ++ [c]) t
  rwa [List.append_assoc, width_append, width, hc] at h

/-- A part of a text can be taken from it. -/
theorem slice_append (s t u : List Char) :
    slice (s ++ (t ++ u)) (width s) (width s + width t) = .ok t := by
  refine bind_eq_ok_iff.mpr ⟨t ++ u, sliceFrom_append s (t ++ u), ?_⟩
  rw [Nat.add_sub_cancel_left, splitAtByte?_append]
  rfl

/-- Where a text goes on behind its beginning, it does so with a character of another kind. -/
theorem split_at_takeWhile {p : Char → Bool} {s behind : List Char} {c : Char}
    (h : s.drop (s.takeWhile p).length = c :: behind) :
    s = s.takeWhile p ++ c :: behind ∧ p c = false := by
  have hdrop : s.drop (s.takeWhile p).length = s.dropWhile p :=
    List.append_cancel_left
      ((List.prefix_iff_eq_append.mp (List.takeWhile_prefix p)).trans
        List.takeWhile_append_dropWhile.symm)
  have hhead := List.head?_dropWhile_not p s
  rw [← hdrop, h] at hhead
  refine ⟨?_, hhead⟩
  rw [← h, hdrop, List.takeWhile_append_dropWhile]

/-! ### Directives -/

/-- Whether no part has been severed. -/
def Unsevered {α : Type} (outcome : Except DirectiveFault α) : Prop := outcome ≠ .error .severed

namespace Unsevered

variable {α β : Type}

theorem ok (a : α) : Unsevered (.ok a) := fun h ↦ nomatch h

theorem error {fault : DirectiveFault} (h : fault ≠ .severed) :
    Unsevered (.error fault : Except DirectiveFault α) :=
  fun hsevered ↦ h (Except.error.inj hsevered)

theorem bind {x : Except DirectiveFault α} {f : α → Except DirectiveFault β} (hx : Unsevered x)
    (hf : ∀ a, Unsevered (f a)) : Unsevered (x >>= f) := by
  cases x with
  | ok a => exact hf a
  | error fault => exact .error fun hfault ↦ hx (congrArg Except.error hfault)

end Unsevered

namespace Directive

variable {whole front rest back target : List Char}

theorem unsevered_thresholdOf (s : List Char) : Unsevered (thresholdOf s) := by
  unfold thresholdOf
  split
  · exact .ok _
  · split
    · exact .ok _
    · exact .error (by decide)

theorem unsevered_constraint? (s : List Char) : Unsevered (constraint? s) := by
  unfold constraint?
  split
  · exact .error (by decide)
  · split
    · split
      · exact .error (fun h ↦ nomatch h)
      · exact .ok _
    · exact .ok _

theorem unsevered_thresholdAt (hwhole : whole = front ++ (rest ++ back)) :
    Unsevered (thresholdAt whole (width front) rest) := by
  unfold thresholdAt
  split
  · exact .ok _
  · rw [hwhole, List.cons_append, sliceFrom_succ rfl]
    exact unsevered_thresholdOf _
  · exact .error (by decide)

theorem unsevered_braced? (hwhole : whole = front ++ (rest ++ back)) (inSpan : Bool) :
    Unsevered (braced? whole target inSpan (width front) rest) := by
  unfold braced?
  dsimp only
  split
  · exact .error (by decide)
  · rename_i closing behind hbehind
    obtain ⟨hrest, hclosing⟩ := split_at_takeWhile hbehind
    generalize rest.takeWhile (fun c ↦ c != '\x7d') = field at hrest ⊢
    obtain rfl : closing = '\x7d' := by simpa using hclosing
    have hparts : whole = front ++ (field ++ ('\x7d' :: behind ++ back)) := by
      rw [hwhole, hrest, List.append_assoc]
    refine .bind ?_ fun written ↦ .bind (unsevered_constraint? written) fun constraint ↦ ?_
    · rw [hparts, slice_append]
      exact .ok field
    · split
      · -- The brace and the bracket behind it are a byte each.
        rename_i others
        have hplace : width front + width field + 2 = width (front ++ field ++ ['\x7d', ']']) := by
          rw [width_append, width_append]
          rfl
        have hsplit : whole = front ++ field ++ ['\x7d', ']'] ++ (others ++ back) := by
          simp [hparts]
        rw [hplace]
        exact .bind (unsevered_thresholdAt hsplit) fun threshold ↦ .ok _
      · exact .error (by decide)

theorem unsevered_bracketed? (hwhole : whole = front ++ (rest ++ back)) :
    Unsevered (bracketed? whole target (width front) rest) := by
  unfold bracketed?
  dsimp only
  split
  · exact .error (by decide)
  · rename_i closing behind hbehind
    obtain ⟨hrest, hclosing⟩ := split_at_takeWhile hbehind
    generalize rest.takeWhile (fun c ↦ c != ']' && c != '\x7b') = span at hrest ⊢
    have hsize : closing.utf8Size = 1 := by
      have hkind : closing = ']' ∨ closing = '\x7b' := by
        simpa only [Bool.and_eq_false_iff, bne_eq_false_iff_eq] using hclosing
      rcases hkind with rfl | rfl <;> rfl
    have hparts : whole = front ++ (span ++ (closing :: behind ++ back)) := by
      rw [hwhole, hrest, List.append_assoc]
    have hplace : width front + width span + 1 = width (front ++ span ++ [closing]) := by
      rw [width_append, width_append, width, hsize]
      rfl
    have hsplit : whole = front ++ span ++ [closing] ++ (behind ++ back) := by simp [hparts]
    refine .bind ?_ fun _ ↦ ?_
    · rw [hparts, slice_append]
      exact .ok span
    · rw [hplace]
      split
      · exact .bind (unsevered_thresholdAt hsplit) fun _ ↦ .ok none
      · exact unsevered_braced? hsplit _

theorem unsevered_targeted? (hwhole : whole = target ++ (rest ++ back))
    (hrest : ∀ c ∈ rest.head?, c = '=' ∨ c = '[') : Unsevered (targeted? whole target rest) := by
  have htarget : slice whole 0 (width target) = .ok target := by
    have h := slice_append [] target (rest ++ back)
    rw [List.nil_append, width, Nat.zero_add] at h
    rwa [hwhole]
  unfold targeted?
  dsimp only
  split
  · split
    · exact .ok _
    · exact .ok _
  · rename_i behind
    rw [htarget, hwhole, List.cons_append, sliceFrom_succ rfl]
    exact .bind (.ok target) fun _ ↦ .bind (.ok _) fun _ ↦ .bind (unsevered_thresholdOf _) fun _ ↦
      .ok _
  · rename_i c behind hequals
    obtain rfl : c = '[' := (hrest c rfl).resolve_left hequals
    have hplace : width target + 1 = width (target ++ ['[']) := by
      rw [width_append]
      rfl
    have hsplit : whole = target ++ ['['] ++ (behind ++ back) := by simp [hwhole]
    rw [htarget, hplace]
    exact .bind (.ok target) fun _ ↦ unsevered_bracketed? hsplit

/-- No part of a directive is severed if it does not begin with a blank. -/
theorem unsevered_ofText? (hfirst : ∀ c ∈ whole.head?, Text.isBlank c = false) :
    Unsevered (ofText? whole) := by
  obtain ⟨back, hback⟩ := Text.trimChars_append_of_begins_bare hfirst
  unfold ofText?
  split
  · exact .error (by decide)
  · rename_i rest htrim
    have hsplit : whole = ['['] ++ (rest ++ back) := by
      rw [htrim] at hback
      exact hback
    exact unsevered_bracketed? hsplit
  · rename_i first rest _ htrim
    rw [htrim] at hback
    dsimp only
    split
    · have hparts := List.prefix_iff_eq_append.mp
        (List.takeWhile_prefix (l := first :: rest) fun c ↦ c != '=' && c != '[')
      rw [← hparts, List.append_assoc] at hback
      refine unsevered_targeted? hback fun c hc ↦ ?_
      obtain ⟨behind, hbehind⟩ := List.head?_eq_some_iff.mp hc
      simpa only [Bool.and_eq_false_iff, bne_eq_false_iff_eq] using (split_at_takeWhile hbehind).2
    · exact .error (by decide)

end Directive

/-! ### Filters -/

/-- The characters of a piece are among those of the text. -/
theorem mem_of_mem_split {separator c : Char} {s piece : List Char}
    (hpiece : piece ∈ Text.split separator s) (hc : c ∈ piece) : c ∈ s := by
  induction s generalizing piece with
  | nil =>
    obtain rfl := List.mem_singleton.mp hpiece
    exact absurd hc List.not_mem_nil
  | cons d s ih =>
    rw [Text.split] at hpiece
    split at hpiece
    · rcases List.mem_cons.mp hpiece with rfl | hlater
      · exact absurd hc List.not_mem_nil
      · exact List.mem_cons_of_mem _ (ih hlater hc)
    · cases hrest : Text.split separator s with
      | nil =>
        rw [hrest, Text.consFirst] at hpiece
        obtain rfl := List.mem_singleton.mp hpiece
        exact List.mem_cons.mpr (Or.inl (List.mem_singleton.mp hc))
      | cons first pieces =>
        rw [hrest] at hpiece ih
        rcases List.mem_cons.mp hpiece with rfl | hlater
        · rcases List.mem_cons.mp hc with rfl | hc
          · exact List.mem_cons_self
          · exact List.mem_cons_of_mem _ (ih List.mem_cons_self hc)
        · exact List.mem_cons_of_mem _ (ih (List.mem_cons_of_mem _ hlater) hc)

namespace Filter

variable {text : String}

/-- A run of readings fails for the reason that one of them fails for. -/
theorem exists_error_of_mapM {α β ε : Type} {f : α → Except ε β} {l : List α} {e : ε}
    (h : l.mapM f = .error e) : ∃ a ∈ l, f a = .error e := by
  induction l with
  | nil => cases h
  | cons a l ih =>
    rw [List.mapM_cons] at h
    cases hf : f a with
    | error fault =>
      rw [hf] at h
      exact ⟨a, List.mem_cons_self, hf.trans (congrArg Except.error (Except.error.inj h))⟩
    | ok b =>
      rw [hf] at h
      cases hl : l.mapM f with
      | error fault =>
        rw [hl] at h
        obtain ⟨c, hc, hfault⟩ := ih (hl.trans (congrArg Except.error (Except.error.inj h)))
        exact ⟨c, List.mem_cons_of_mem _ hc, hfault⟩
      | ok bs =>
        rw [hl] at h
        cases h

/-- The reader returns on a text none of whose directives begins with a blank. -/
theorem returns_of_begins_bare
    (h : ∀ piece ∈ pieces text, ∀ c ∈ piece.head?, Text.isBlank c = false) :
    reader.Returns text := by
  have hunsevered : ∀ piece ∈ pieces text, Unsevered (Directive.ofText? piece) :=
    fun piece hpiece ↦ Directive.unsevered_ofText? (h piece hpiece)
  constructor
  · have hstrict : ∃ outcome, strict text = .ok outcome := by
      unfold strict
      split
      · exact ⟨_, rfl⟩
      · rename_i hsevered
        obtain ⟨piece, hpiece, hfault⟩ := exists_error_of_mapM hsevered
        exact absurd hfault (hunsevered piece hpiece)
      · exact ⟨_, rfl⟩
    obtain ⟨outcome, houtcome⟩ := hstrict
    exact ⟨_, by rw [reader_strict, houtcome]; rfl⟩
  · have hnone : ((pieces text).any fun piece ↦ isSevered (Directive.ofText? piece)) = false := by
      rw [List.any_eq_false]
      intro piece hpiece hsevered
      unfold isSevered at hsevered
      split at hsevered
      · rename_i hfault
        exact hunsevered piece hpiece hfault
      · cases hsevered
    have hlenient : lenient text = .ok (ofOutcomes ((pieces text).filterMap fun piece ↦
          (Directive.ofText? piece).toOption),
        (pieces text).filterMap fun piece ↦ note? piece (Directive.ofText? piece)) := by
      rw [lenient, hnone, if_neg Bool.false_ne_true]
    exact ⟨_, by rw [reader_lenient, hlenient]; rfl⟩

/-- The reader returns on a text without blanks. -/
theorem returns_of_isSolid (h : Text.IsSolid text) : reader.Returns text :=
  returns_of_begins_bare fun _ hpiece c hc ↦
    h c (mem_of_mem_split (List.mem_filter.mp hpiece).1 (List.mem_of_mem_head? hc))

/-- A blank of two bytes shifts the target into the middle of itself. -/
example : reader.strict "\u00a0a=info" = .error severed := by rfl

theorem lenient_warn : lenient "warn" = .ok (⟨[⟨[], none, Level.warn.rank⟩]⟩, []) := by
  rfl

/-- The level `warn` lets through what matters at least as much as a warning. -/
theorem reader_warnsOnly : reader.WarnsOnly := by
  intro passes notes h e
  rw [reader_lenient, lenient_warn] at h
  obtain ⟨rfl, -⟩ := Prod.mk.inj (Except.ok.inj h)
  simp [Filter.passes, deciding, Directive.covers, moreSpecific]

end Filter

/-! ### A reader that always returns -/

namespace FilterReader

/-- The same reader, but where it gives up on a text, the text is refused and nothing passes. -/
def steady (F : FilterReader) : FilterReader where
  strict text := .ok ((F.strict text).toOption.getD none)
  lenient text := .ok ((F.lenient text).toOption.getD (fun _ ↦ false, []))

/-- Where reading is not given up, nothing is changed. -/
theorem Returns.steady_eq {F : FilterReader} {text : String} (h : F.Returns text) :
    F.steady.strict text = F.strict text ∧ F.steady.lenient text = F.lenient text := by
  obtain ⟨⟨_, hstrict⟩, _, hlenient⟩ := h
  simp [steady, hstrict, hlenient, Except.toOption]

theorem WarnsOnly.steady_lawful {F : FilterReader} (hF : F.WarnsOnly) (hwarn : F.Returns "warn") :
    F.steady.Lawful where
  returns _ := ⟨⟨_, rfl⟩, _, rfl⟩
  warnsOnly passes notes h := hF passes notes (hwarn.steady_eq.2 ▸ h)

end FilterReader

/-- This program's reader, made to return always, is lawful. -/
theorem Filter.steady_reader_lawful : reader.steady.Lawful :=
  reader_warnsOnly.steady_lawful (returns_of_isSolid (by decide))

end RoleKey.Diagnostics
