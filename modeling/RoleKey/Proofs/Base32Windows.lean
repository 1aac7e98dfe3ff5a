import Mathlib.Algebra.Order.Floor.Div
import RoleKey.Proofs.Base32Bijection

/-!
Every character of a text in base 32 stands for five bits of the data in a row.

`bitAt` reads one bit of a byte string by its place, with zeros behind the last byte, and `window`
the number that five of them spell. Blocks of one width hold the bits of their symbols at fixed
places (`getElem?_blockBits`), for bytes as for digits, so that a digit's own bits are the ones at
its place in the data (`testBit_digits`) and the digit is the window there (`val_digits`).
`letters_are_windows` says so of the text: how long it is, which letter stands at which place, and
that the text of bytes in groups of five may be written before that of the others.
-/

set_option autoImplicit false
set_option relaxedAutoImplicit false

namespace RoleKey

/-! ### Places -/

theorem getElem?_bitsOf (width value : ℕ) {place : ℕ} (hplace : place < width) :
    (bitsOf width value)[place]? = some (value.testBit (width - 1 - place)) := by
  induction width generalizing place with
  | zero => omega
  | succ width ih =>
    cases place with
    | zero => rw [bitsOf, List.getElem?_cons_zero, Nat.add_sub_cancel, Nat.sub_zero]
    | succ place =>
      have hback : width + 1 - 1 - (place + 1) = width - 1 - place := by omega
      rw [bitsOf, List.getElem?_cons_succ, ih (by omega), hback]

/-- A symbol's bits stand in its block, from the most significant one on. -/
theorem getElem?_blockBits {α : Type} {width : ℕ} (value : α → ℕ) (symbols : List α) (block : ℕ)
    {place : ℕ} (hplace : place < width) :
    (blockBits width value symbols)[width * block + place]? =
      symbols[block]?.map fun symbol ↦ (value symbol).testBit (width - 1 - place) := by
  induction symbols generalizing block with
  | nil => simp
  | cons symbol rest ih =>
    rw [blockBits_cons]
    cases block with
    | zero =>
      rw [Nat.mul_zero, Nat.zero_add, List.getElem?_append_left (by rwa [length_bitsOf]),
        getElem?_bitsOf width _ hplace]
      rfl
    | succ block =>
      have hbehind : width * (block + 1) + place - width = width * block + place := by
        rw [Nat.mul_succ]
        omega
      rw [List.getElem?_append_right (by rw [length_bitsOf, Nat.mul_succ]; omega), length_bitsOf,
        hbehind, ih, List.getElem?_cons_succ]

/-- The bit of a byte string at a place that is counted from the most significant bit of the first
byte. Behind the last byte every bit is zero. -/
def bitAt (data : Bytes) (place : ℕ) : Bool :=
  (data.getD (place / 8) 0).toNat.testBit (7 - place % 8)

theorem getD_byteBits (data : Bytes) (place : ℕ) :
    (byteBits data)[place]?.getD false = bitAt data place := by
  have hoffset : place % 8 < 8 := Nat.mod_lt place (by decide)
  have hblock := getElem?_blockBits UInt8.toNat data (place / 8) hoffset
  rw [Nat.div_add_mod] at hblock
  rw [byteBits, hblock, bitAt, List.getD_eq_getElem?_getD]
  cases data[place / 8]? with
  | none => simp
  | some b => rfl

namespace Base32

/-! ### Windows -/

/-- The number that the five bits from a place on spell. -/
def window (data : Bytes) (place : ℕ) : ℕ :=
  valueOf ((List.range 5).map fun offset ↦ bitAt data (place + offset))

/-- The bits of the digit at an index are those of the data at its place, filled up with zeros. -/
theorem testBit_digits {data : Bytes} {index : ℕ} {digit : Digit}
    (hdigit : (digits data)[index]? = some digit) {offset : ℕ} (hoffset : offset < 5) :
    digit.val.testBit (4 - offset) = bitAt data (5 * index + offset) := by
  obtain ⟨filler, -, hbits⟩ := digitBits_digits data
  have hblock := getElem?_blockBits Fin.val (digits data) index hoffset
  rw [hdigit, ← digitBits, hbits] at hblock
  rw [← getD_byteBits]
  by_cases hplace : 5 * index + offset < (byteBits data).length
  · rw [List.getElem?_append_left hplace] at hblock
    rw [hblock]
    rfl
  · rw [List.getElem?_append_right (Nat.le_of_not_lt hplace)] at hblock
    rw [List.getElem?_eq_none (Nat.le_of_not_lt hplace)]
    obtain ⟨hlt, hzero⟩ := List.getElem?_eq_some_iff.mp hblock
    rw [List.getElem_replicate] at hzero
    exact hzero.symm

/-- The digit at an index is the window there. -/
theorem val_digits {data : Bytes} {index : ℕ} {digit : Digit}
    (hdigit : (digits data)[index]? = some digit) : digit.val = window data (5 * index) := by
  have hbits : bitsOf 5 digit.val =
      (List.range 5).map fun offset ↦ bitAt data (5 * index + offset) := by
    calc bitsOf 5 digit.val
        = (List.range 5).map fun offset ↦ digit.val.testBit (4 - offset) := rfl
      _ = (List.range 5).map fun offset ↦ bitAt data (5 * index + offset) :=
          List.map_congr_left fun _ hoffset ↦ testBit_digits hdigit (List.mem_range.mp hoffset)
  have hlt : digit.val < 2 ^ 5 := digit.isLt
  rw [window, ← hbits, valueOf_bitsOf, Nat.mod_eq_of_lt hlt]

theorem alphabet_eq : alphabet = "ABCDEFGHIJKLMNOPQRSTUVWXYZ234567" := by decide

theorem getElem?_alphabet (digit : Digit) :
    alphabet.toList[digit.val]? = some (letter digit) := by
  rw [alphabet, String.toList_ofList, List.getElem?_map, List.getElem?_eq_getElem (by simp)]
  simp

/-- The character at an index of a text is the letter of the window there. -/
theorem getElem?_toList_encode {data : Bytes} {index : ℕ} (hindex : index < (encode data).length) :
    (encode data).toList[index]? = alphabet.toList[window data (5 * index)]? := by
  rw [encode, String.length_ofList, List.length_map] at hindex
  have hdigit := List.getElem?_eq_getElem hindex
  rw [encode, String.toList_ofList, List.getElem?_map, hdigit, ← val_digits hdigit,
    getElem?_alphabet]
  rfl

/-! ### Groups of five bytes -/

/-- Five bytes take eight whole digits, so that nothing is filled up behind groups of five and the
digits of what follows are its own. -/
theorem digits_append {front : Bytes} (hfront : 5 ∣ front.length) (back : Bytes) :
    digits (front ++ back) = digits front ++ digits back := by
  obtain ⟨groups, hgroups⟩ := hfront
  obtain ⟨filler, hfiller, hbits⟩ := digitBits_digits (front ++ back)
  obtain ⟨frontFiller, hfrontFiller, hfrontBits⟩ := digitBits_digits front
  obtain ⟨backFiller, hbackFiller, hbackBits⟩ := digitBits_digits back
  have hcount := length_of_digitBits_eq hbits
  have hfrontCount := length_of_digitBits_eq hfrontBits
  have hbackCount := length_of_digitBits_eq hbackBits
  rw [List.length_append] at hcount
  have hnone : frontFiller = 0 := by omega
  have hsame : backFiller = filler := by omega
  apply digitBits_injective
  rw [digitBits_append, hbits, hfrontBits, hbackBits, hnone, hsame]
  simp

theorem encode_append {front : Bytes} (hfront : 5 ∣ front.length) (back : Bytes) :
    encode (front ++ back) = encode front ++ encode back := by
  rw [encode, digits_append hfront, List.map_append, String.ofList_append]
  rfl

/-! ### The text by windows -/

/-- The text of a byte string has one character for every five bits of the data, the last of which
may be filled up with zeros, and each of them is the letter that stands in the alphabet at the
number which its five bits spell. So the text of bytes in groups of five is the first part of the
text of these bytes and any others. -/
theorem letters_are_windows (data : Bytes) :
    alphabet = "ABCDEFGHIJKLMNOPQRSTUVWXYZ234567" ∧
    (encode data).length = (8 * data.length) ⌈/⌉ 5 ∧
    (∀ index < (encode data).length,
      (encode data).toList[index]? = alphabet.toList[window data (5 * index)]?) ∧
    ∀ back : Bytes, 5 ∣ data.length → encode (data ++ back) = encode data ++ encode back := by
  refine ⟨alphabet_eq, ?_, fun _ hindex ↦ getElem?_toList_encode hindex,
    fun back hdata ↦ encode_append hdata back⟩
  rw [length_encode, Nat.ceilDiv_eq_add_pred_div]
  rfl

/-- Six bytes. -/
def sixBytes : Bytes := [0x66, 0x6F, 0x6F, 0x62, 0x61, 0x72]

/-- The last of the ten letters of six bytes has three bits of data in it, and the first eight are
the text of the first five bytes. -/
theorem letters_are_windows_six_bytes :
    9 < (encode sixBytes).length ∧ (encode sixBytes).toList[9]? = some 'I' ∧
    5 ∣ (sixBytes.take 5).length ∧ encode sixBytes = "MZXW6YTB" ++ encode [0x72] := by
  obtain ⟨-, hlength, hletters, -⟩ := letters_are_windows sixBytes
  have hindex : 9 < (encode sixBytes).length := by
    rw [hlength]
    decide
  have hwindow : alphabet.toList[window sixBytes (5 * 9)]? = some 'I' := by decide
  have hgroup : encode (sixBytes.take 5) = "MZXW6YTB" := by decide
  refine ⟨hindex, (hletters 9 hindex).trans hwindow, ⟨1, rfl⟩, ?_⟩
  rw [← hgroup]
  exact (letters_are_windows (sixBytes.take 5)).2.2.2 [0x72] ⟨1, rfl⟩

end Base32

end RoleKey
