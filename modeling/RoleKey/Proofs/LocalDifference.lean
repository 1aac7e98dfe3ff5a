import Mathlib.Data.List.Basic
import RoleKey.Proofs.BitStrings

/-!
Lists that differ in one place of bounded width.

`DifferWithin width` relates two lists of one length that are the same in front of and behind a
stretch of at most `width` elements. The relation passes from written symbols to symbols
(`DifferWithin.of_map`) and from symbols to their bits, where the stretch is as many times wider as
a block is (`DifferWithin.blockBits`). Where the lists are cut at one place, the stretch lies in
front of the cut, behind it, or across it (`DifferWithin.append_cases`).
-/

set_option autoImplicit false
set_option relaxedAutoImplicit false

namespace RoleKey

variable {α β : Type}

/-- The lists are the same but for one stretch of at most `width` elements, where as many others
may stand. -/
def DifferWithin (width : ℕ) (first second : List α) : Prop :=
  ∃ front old new back, first = front ++ old ++ back ∧ second = front ++ new ++ back ∧
    old.length = new.length ∧ old.length ≤ width

namespace DifferWithin

variable {width : ℕ}

theorem length_eq {first second : List α} (h : DifferWithin width first second) :
    first.length = second.length := by
  obtain ⟨front, old, new, back, rfl, rfl, hlength, -⟩ := h
  simp [hlength]

theorem mono {wider : ℕ} {first second : List α} (h : DifferWithin width first second)
    (hle : width ≤ wider) : DifferWithin wider first second := by
  obtain ⟨front, old, new, back, hfirst, hsecond, hlength, hwidth⟩ := h
  exact ⟨front, old, new, back, hfirst, hsecond, hlength, hwidth.trans hle⟩

theorem of_map {f : α → β} (hf : Function.Injective f) {first second : List α}
    (h : DifferWithin width (first.map f) (second.map f)) : DifferWithin width first second := by
  obtain ⟨front, old, new, back, hfirst, hsecond, hlength, hwidth⟩ := h
  obtain ⟨firstHead, firstBack, rfl, hhead, rfl⟩ := List.map_eq_append_iff.mp hfirst
  obtain ⟨firstFront, firstOld, rfl, rfl, rfl⟩ := List.map_eq_append_iff.mp hhead
  obtain ⟨secondHead, secondBack, rfl, hhead', hback⟩ := List.map_eq_append_iff.mp hsecond
  obtain ⟨secondFront, secondNew, rfl, hfront, rfl⟩ := List.map_eq_append_iff.mp hhead'
  refine ⟨firstFront, firstOld, secondNew, firstBack, rfl, ?_, by simpa using hlength,
    by simpa using hwidth⟩
  rw [List.map_injective_iff.mpr hf hback, List.map_injective_iff.mpr hf hfront]

theorem blockBits {size : ℕ} {value : α → ℕ} {first second : List α}
    (h : DifferWithin width first second) :
    DifferWithin (size * width) (blockBits size value first) (blockBits size value second) := by
  obtain ⟨front, old, new, back, rfl, rfl, hlength, hwidth⟩ := h
  refine ⟨RoleKey.blockBits size value front, RoleKey.blockBits size value old,
    RoleKey.blockBits size value new, RoleKey.blockBits size value back, by simp, by simp, ?_, ?_⟩
  · rw [length_blockBits, length_blockBits, hlength]
  · rw [length_blockBits]
    exact Nat.mul_le_mul_left size hwidth

/-- Where both lists are cut at one place, either the stretch lies in front of the cut, or the
front parts are the same, or the stretch lies across the cut. -/
theorem append_cases {first first' second second' : List α}
    (h : DifferWithin width (first ++ first') (second ++ second'))
    (hcut : first.length = second.length) :
    (DifferWithin width first second ∧ first' = second') ∨ first = second ∨
      ∃ front old new old' new' back, first = front ++ old ∧ second = front ++ new ∧
        first' = old' ++ back ∧ second' = new' ++ back ∧ old.length = new.length ∧
        old'.length = new'.length ∧ 0 < old'.length ∧ old.length + old'.length ≤ width := by
  obtain ⟨front, old, new, back, hfirst, hsecond, hlength, hwidth⟩ := h
  have htotal := congrArg List.length hfirst
  simp only [List.length_append] at htotal
  by_cases hinside : front.length + old.length ≤ first.length
  · left
    have hback := List.take_append_drop (first.length - (front.length + old.length)) back
    rw [← hback, ← List.append_assoc] at hfirst hsecond
    obtain ⟨hhead, htail⟩ := List.append_inj hfirst (by simp; omega)
    obtain ⟨hhead', htail'⟩ := List.append_inj hsecond (by simp; omega)
    exact ⟨⟨front, old, new, _, hhead, hhead', hlength, hwidth⟩, htail.trans htail'.symm⟩
  · right
    by_cases hbefore : first.length ≤ front.length
    · left
      have hfront := List.take_append_drop first.length front
      rw [← hfront] at hfirst hsecond
      simp only [List.append_assoc] at hfirst hsecond
      obtain ⟨hhead, -⟩ := List.append_inj hfirst (by simp; omega)
      obtain ⟨hhead', -⟩ := List.append_inj hsecond (by simp; omega)
      exact hhead.trans hhead'.symm
    · right
      have hold := List.take_append_drop (first.length - front.length) old
      have hnew := List.take_append_drop (first.length - front.length) new
      rw [← hold, ← List.append_assoc, List.append_assoc] at hfirst
      rw [← hnew, ← List.append_assoc, List.append_assoc] at hsecond
      obtain ⟨hhead, htail⟩ := List.append_inj hfirst (by simp; omega)
      obtain ⟨hhead', htail'⟩ := List.append_inj hsecond (by simp; omega)
      refine ⟨front, _, _, _, _, back, hhead, hhead', htail, htail', ?_, ?_, ?_, ?_⟩ <;>
        simp <;> omega

end DifferWithin

end RoleKey
