import Mathlib.Data.List.Basic
import RoleKey.Proofs.Outcomes
import RoleKey.Text.Hexadecimal

/-!
Reading hexadecimal digits gives the bytes that they spell.

A text spells bytes if in lower case it is the one that is written for them (`Spells`), and reading
gives exactly the bytes that a text spells (`decode_eq_ok_iff`), so that what is written is read
again (`decode_encode`). Reading works on the bytes of the text: a byte is a digit exactly if its
character is one in lower case (`value?_eq_some_iff`), two of them are taken in a step
(`pairsFrom_cons_cons_eq_ok_iff`), and a text that has such bytes only has their characters
(`toList_of_utf8_lt`). `length_encode` and `mem_digits_of_mem_encode` say what the written text
looks like, and `exists_spells_iff` which texts spell so many bytes: as many pairs of digits, each
of either case.
-/

set_option autoImplicit false
set_option relaxedAutoImplicit false

namespace RoleKey.Text

/-! ### Texts and their bytes -/

theorem ofUtf8?_utf8 (s : String) : ofUtf8? (utf8 s) = some s := by
  rw [ofUtf8?, utf8, Array.toArray_toList]
  exact dif_pos s.isValidUTF8

/-- Bytes are read as a text exactly if they are the bytes of that text. -/
theorem ofUtf8?_eq_some_iff {data : Bytes} {s : String} : ofUtf8? data = some s ↔ data = utf8 s := by
  constructor
  · intro h
    rw [ofUtf8?, String.fromUTF8?] at h
    split_ifs at h
    obtain rfl := Option.some.inj h
    rfl
  · rintro rfl
    exact ofUtf8?_utf8 s

theorem utf8_injective {s t : String} (h : utf8 s = utf8 t) : s = t :=
  Option.some.inj ((ofUtf8?_utf8 s).symm.trans (ofUtf8?_eq_some_iff.mpr h))

theorem utf8EncodeChar_of_lt {c : Char} (h : c.toNat < 128) :
    String.utf8EncodeChar c = [c.toUInt8] := by
  have hsize : c.utf8Size = 1 := by
    rw [Char.utf8Size_eq_one_iff, UInt32.le_iff_toNat_le]
    exact Nat.le_of_lt_succ h
  exact String.utf8EncodeChar_eq_singleton hsize

/-- Characters of one byte each have their codes for bytes. -/
theorem utf8_ofList {chars : List Char} (h : ∀ c ∈ chars, c.toNat < 128) :
    utf8 (String.ofList chars) = chars.map Char.toUInt8 := by
  rw [utf8, String.toUTF8_eq_toByteArray, String.toByteArray_ofList, List.utf8Encode,
    List.toList_data_toByteArray]
  induction chars with
  | nil => rfl
  | cons c rest ih =>
    rw [List.flatMap_cons, utf8EncodeChar_of_lt (h c List.mem_cons_self), List.map_cons,
      ih fun d hd ↦ h d (List.mem_cons_of_mem c hd)]
    rfl

/-- The character of a byte below 128. -/
def charOf (b : UInt8) : Char := Char.ofNat b.toNat

theorem charOf_of_lt : ∀ n < 128, (charOf (UInt8.ofNat n)).toNat = n ∧
    (charOf (UInt8.ofNat n)).toUInt8 = UInt8.ofNat n := by
  decide +kernel

/-- A text with bytes below 128 only has their characters. -/
theorem toList_of_utf8_lt {s : String} (h : ∀ b ∈ utf8 s, b.toNat < 128) :
    s.toList = (utf8 s).map charOf := by
  have hchar : ∀ b ∈ utf8 s, (charOf b).toNat = b.toNat ∧ (charOf b).toUInt8 = b := by
    intro b hb
    have hcode := charOf_of_lt b.toNat (h b hb)
    rwa [UInt8.ofNat_toNat] at hcode
  have hutf8 : utf8 (String.ofList ((utf8 s).map charOf)) = utf8 s := by
    rw [utf8_ofList, List.map_map]
    · exact (List.map_congr_left fun b hb ↦ (hchar b hb).2).trans (List.map_id _)
    · intro c hc
      obtain ⟨b, hb, rfl⟩ := List.mem_map.mp hc
      rw [(hchar b hb).1]
      exact h b hb
  rw [← utf8_injective hutf8, String.toList_ofList, utf8_injective hutf8]

namespace Hexadecimal

/-! ### One digit -/

theorem toNat_digit_lt : ∀ value < 16, (digit value).toNat < 128 := by decide

theorem toLower_digit : ∀ value < 16, (digit value).toLower = digit value := by decide

theorem value?_ofNat : ∀ m < 256, ∀ n < 16,
    value? (UInt8.ofNat m) = some (UInt8.ofNat n) ↔
      (charOf (UInt8.ofNat m)).toLower = digit n := by
  decide +kernel

theorem value?_lt : ∀ m < 256, ∀ v ∈ value? (UInt8.ofNat m), v.toNat < 16 ∧ m < 128 := by
  -- Decided for the one value there may be: to decide it for all bytes at each byte takes long.
  have hall : ∀ m < 256, (value? (UInt8.ofNat m)).all (fun v ↦ v.toNat < 16 ∧ m < 128) := by
    decide +kernel
  intro m hm v hv
  have hvalue := hall m hm
  rw [Option.mem_def.mp hv] at hvalue
  exact of_decide_eq_true hvalue

/-- A byte is a digit exactly if its character in lower case is that of a value below sixteen. -/
theorem value?_eq_some_iff {b v : UInt8} :
    value? b = some v ↔ v.toNat < 16 ∧ (charOf b).toLower = digit v.toNat := by
  have hvalue := value?_ofNat b.toNat b.toNat_lt v.toNat
  have hlt := value?_lt b.toNat b.toNat_lt v
  rw [UInt8.ofNat_toNat, UInt8.ofNat_toNat] at hvalue
  rw [UInt8.ofNat_toNat] at hlt
  constructor
  · intro h
    exact ⟨(hlt h).1, (hvalue (hlt h).1).mp h⟩
  · rintro ⟨hv, h⟩
    exact (hvalue hv).mpr h

theorem value?_of_digit {b : UInt8} {value : ℕ} (hvalue : value < 16)
    (h : (charOf b).toLower = digit value) : value? b = some (UInt8.ofNat value) := by
  have hofNat : (UInt8.ofNat value).toNat = value := by
    rw [UInt8.toNat_ofNat']
    omega
  rw [value?_eq_some_iff, hofNat]
  exact ⟨hvalue, h⟩

/-- A byte that is a digit has a character of its own. -/
theorem lt_of_value? {b v : UInt8} (h : value? b = some v) : b.toNat < 128 := by
  have hlt := value?_lt b.toNat b.toNat_lt v
  rw [UInt8.ofNat_toNat] at hlt
  exact (hlt h).2

theorem valueAt_eq_ok_iff {position : ℕ} {b v : UInt8} :
    valueAt position b = .ok v ↔ value? b = some v := by
  rw [valueAt]
  cases value? b <;> simp

/-! ### Two digits -/

/-- Both digits of a byte are digits of values below sixteen. -/
theorem exists_digit_of_mem {b : UInt8} {c : Char} (h : c ∈ digitsOf b) :
    ∃ value < 16, digit value = c := by
  have hb := b.toNat_lt
  rcases List.mem_pair.mp h with rfl | rfl
  · exact ⟨b.toNat / 16, by omega, rfl⟩
  · exact ⟨b.toNat % 16, by omega, rfl⟩

/-- A byte is put together from its two halves. -/
theorem halves_eq (b : UInt8) :
    UInt8.ofNat (b.toNat / 16) * 16 + UInt8.ofNat (b.toNat % 16) = b := by
  have hb := b.toNat_lt
  apply UInt8.toNat_inj.mp
  rw [UInt8.toNat_add, UInt8.toNat_mul, UInt8.toNat_ofNat', UInt8.toNat_ofNat']
  simp only [UInt8.reduceToNat]
  omega

/-- The digits of a byte that is put together from two values below sixteen. -/
theorem digitsOf_halves {high low : ℕ} (hhigh : high < 16) (hlow : low < 16) :
    digitsOf (UInt8.ofNat high * 16 + UInt8.ofNat low) = [digit high, digit low] := by
  have hvalue : (UInt8.ofNat high * 16 + UInt8.ofNat low).toNat = 16 * high + low := by
    rw [UInt8.toNat_add, UInt8.toNat_mul, UInt8.toNat_ofNat', UInt8.toNat_ofNat']
    simp only [UInt8.reduceToNat]
    omega
  have hquotient : (16 * high + low) / 16 = high := by omega
  have hrest : (16 * high + low) % 16 = low := by omega
  rw [digitsOf, hvalue, hquotient, hrest]

/-- A step reads the byte whose digits the two characters are in lower case. -/
theorem pairsFrom_cons_cons_eq_ok_iff {position : ℕ} {high low : UInt8} {rest data : Bytes} :
    pairsFrom position (high :: low :: rest) = .ok data ↔
      ∃ b others, [(charOf high).toLower, (charOf low).toLower] = digitsOf b ∧
        pairsFrom (position + 2) rest = .ok others ∧ data = b :: others := by
  rw [pairsFrom]
  simp only [bind_eq_ok_iff, valueAt_eq_ok_iff]
  constructor
  · rintro ⟨h, hhigh, l, hlow, others, hrest, hdata⟩
    obtain ⟨hh, hhigh⟩ := value?_eq_some_iff.mp hhigh
    obtain ⟨hl, hlow⟩ := value?_eq_some_iff.mp hlow
    refine ⟨h * 16 + l, others, ?_, hrest, (Except.ok.inj hdata).symm⟩
    have hdigits := digitsOf_halves hh hl
    rw [UInt8.ofNat_toNat, UInt8.ofNat_toNat] at hdigits
    rw [hdigits, hhigh, hlow]
  · rintro ⟨b, others, hdigits, hrest, rfl⟩
    obtain ⟨hhigh, hdigits⟩ := List.cons.inj hdigits
    obtain ⟨hlow, -⟩ := List.cons.inj hdigits
    have hb := b.toNat_lt
    refine ⟨_, value?_of_digit (by omega) hhigh, _, value?_of_digit (by omega) hlow, others, hrest,
      ?_⟩
    rw [halves_eq]
    rfl

/-! ### What is written -/

theorem exists_digit_of_mem_encode {data : Bytes} {c : Char} (h : c ∈ (encode data).toList) :
    ∃ value < 16, digit value = c := by
  rw [encode, String.toList_ofList] at h
  obtain ⟨b, -, hb⟩ := List.mem_flatMap.mp h
  exact exists_digit_of_mem hb

theorem length_encode (data : Bytes) : (encode data).length = 2 * data.length := by
  rw [encode, String.length_ofList]
  induction data with
  | nil => rfl
  | cons b rest ih =>
    rw [List.flatMap_cons, List.length_append, ih, List.length_cons]
    change 2 + 2 * rest.length = _
    omega

theorem length_flatMap_digitsOf (data : Bytes) :
    (data.flatMap digitsOf).length = 2 * data.length := by
  rw [← length_encode, encode, String.length_ofList]

/-! ### What is read -/

/-- In lower case the text is the one that is written for the bytes. -/
def Spells (text : String) (data : Bytes) : Prop :=
  text.toList.map Char.toLower = (encode data).toList

theorem spells_iff {text : String} {data : Bytes} :
    Spells text data ↔ text.toList.map Char.toLower = data.flatMap digitsOf := by
  rw [Spells, encode, String.toList_ofList]

/-- From whatever position on, exactly the digits of a byte string are read as that byte string. -/
theorem pairsFrom_eq_ok_iff {digits : Bytes} {position : ℕ} {data : Bytes} :
    pairsFrom position digits = .ok data ↔
      (digits.map charOf).map Char.toLower = data.flatMap digitsOf := by
  -- On the digits, two at a time as they are read; an odd one is left over at the end.
  induction position, digits using pairsFrom.induct generalizing data with
  | case1 position =>
    cases data with
    | nil => exact iff_of_true rfl rfl
    | cons b others => exact iff_of_false (fun h ↦ nomatch h) fun h ↦ nomatch h
  | case2 position odd =>
    cases data with
    | nil => exact iff_of_false (fun h ↦ nomatch h) fun h ↦ nomatch h
    | cons b others => exact iff_of_false (fun h ↦ nomatch h) fun h ↦ nomatch (List.cons.inj h).2
  | case3 position high low rest ih =>
    rw [pairsFrom_cons_cons_eq_ok_iff]
    constructor
    · rintro ⟨b, others, hdigits, hrest, rfl⟩
      rw [List.flatMap_cons, ← hdigits, ← ih.mp hrest]
      rfl
    · intro h
      cases data with
      | nil => exact nomatch h
      | cons b others =>
        change [(charOf high).toLower, (charOf low).toLower] ++ (rest.map charOf).map Char.toLower =
          digitsOf b ++ others.flatMap digitsOf at h
        obtain ⟨hdigits, hrest⟩ := List.append_inj h rfl
        exact ⟨b, others, hdigits, ih.mpr hrest, rfl⟩

/-- An even number of bytes is needed, and the digits of bytes are always even in number. -/
theorem decode_eq_pairsFrom {text : String} {data : Bytes} :
    decode text = .ok data ↔ pairsFrom 0 (utf8 text) = .ok data := by
  rw [decode]
  split_ifs with hodd
  · refine iff_of_false (fun h ↦ nomatch h) fun h ↦ ?_
    have hlength := congrArg List.length (pairsFrom_eq_ok_iff.mp h)
    rw [List.length_map, List.length_map, length_flatMap_digitsOf] at hlength
    omega
  · rfl

theorem exists_digit_of_map_toLower {chars : List Char} {data : Bytes}
    (h : chars.map Char.toLower = data.flatMap digitsOf) {c : Char} (hc : c ∈ chars) :
    ∃ value < 16, c.toLower = digit value := by
  have hlower : c.toLower ∈ data.flatMap digitsOf := h ▸ List.mem_map_of_mem hc
  obtain ⟨b, -, hb⟩ := List.mem_flatMap.mp hlower
  obtain ⟨value, hvalue, hdigit⟩ := exists_digit_of_mem hb
  exact ⟨value, hvalue, hdigit.symm⟩

/-- Letters beyond the first 128 are not lowered. -/
theorem lt_of_toLower_eq_digit {c : Char} {value : ℕ} (hvalue : value < 16)
    (h : c.toLower = digit value) : c.toNat < 128 := by
  by_contra hlarge
  have hsame : c.toLower = c := by
    unfold Char.toLower
    rw [dif_neg]
    rintro ⟨-, hupper⟩
    have hupper : c.toNat ≤ 90 := hupper
    omega
  rw [hsame] at h
  rw [h] at hlarge
  exact hlarge (toNat_digit_lt value hvalue)

/-- Reading gives exactly the bytes that the text spells. -/
theorem decode_eq_ok_iff {text : String} {data : Bytes} :
    decode text = .ok data ↔ Spells text data := by
  rw [decode_eq_pairsFrom, pairsFrom_eq_ok_iff, spells_iff]
  -- Either way the bytes are below 128, so that they are those of the characters one by one.
  constructor
  · intro h
    have hbytes : ∀ b ∈ utf8 text, b.toNat < 128 := by
      intro b hb
      obtain ⟨value, hvalue, hdigit⟩ :=
        exists_digit_of_map_toLower h (List.mem_map_of_mem hb)
      exact lt_of_value? (value?_of_digit hvalue hdigit)
    rw [toList_of_utf8_lt hbytes, h]
  · intro h
    have hchars : ∀ c ∈ text.toList, c.toNat < 128 := by
      intro c hc
      obtain ⟨value, hvalue, hdigit⟩ := exists_digit_of_map_toLower h hc
      exact lt_of_toLower_eq_digit hvalue hdigit
    have hbytes : ∀ b ∈ utf8 text, b.toNat < 128 := by
      intro b hb
      rw [← String.ofList_toList (s := text), utf8_ofList hchars] at hb
      obtain ⟨c, hc, rfl⟩ := List.mem_map.mp hb
      have hlt := hchars c hc
      change c.toNat % 256 < 128
      omega
    rw [← toList_of_utf8_lt hbytes, h]

/-- What is written is read as the same bytes. -/
theorem decode_encode (data : Bytes) : decode (encode data) = .ok data := by
  rw [decode_eq_ok_iff, Spells]
  refine (List.map_congr_left fun c hc ↦ ?_).trans (List.map_id _)
  obtain ⟨value, hvalue, rfl⟩ := exists_digit_of_mem_encode hc
  exact toLower_digit value hvalue

/-! ### Texts of digits -/

/-- The digits, of either case. -/
def digits : List Char := "0123456789abcdefABCDEF".toList

theorem exists_toLower_of_mem_digits :
    ∀ c ∈ digits, ∃ value < 16, c.toLower = digit value := by
  have hlower : digits.all (fun c ↦ ((List.range 16).map digit).contains c.toLower) = true := by
    decide +kernel
  intro c hc
  obtain ⟨value, hvalue, hdigit⟩ :=
    List.mem_map.mp (List.contains_iff_mem.mp (List.all_eq_true.mp hlower c hc))
  exact ⟨value, List.mem_range.mp hvalue, hdigit.symm⟩

/-- Only the digits are digits in lower case. -/
theorem mem_digits_of_toLower {c : Char} {value : ℕ} (hvalue : value < 16)
    (h : c.toLower = digit value) : c ∈ digits := by
  have hall : ∀ n < 128, ∀ value < 16, (Char.ofNat n).toLower = digit value →
      Char.ofNat n ∈ digits := by
    decide +kernel
  have hmem := hall c.toNat (lt_of_toLower_eq_digit hvalue h) value hvalue
  rw [Char.ofNat_toNat] at hmem
  exact hmem h

/-- Whatever spells bytes is as many pairs of digits. -/
theorem Spells.digits_of {text : String} {data : Bytes} (h : Spells text data) :
    text.length = 2 * data.length ∧ ∀ c ∈ text.toList, c ∈ digits := by
  rw [spells_iff] at h
  constructor
  · have hlength := congrArg List.length h
    rwa [List.length_map, String.length_toList, length_flatMap_digitsOf] at hlength
  · intro c hc
    obtain ⟨value, hvalue, hdigit⟩ := exists_digit_of_map_toLower h hc
    exact mem_digits_of_toLower hvalue hdigit

/-- Pairs of digits are the digits of as many bytes. -/
theorem exists_flatMap_digitsOf (n : ℕ) : ∀ chars : List Char, chars.length = 2 * n →
    (∀ c ∈ chars, c ∈ digits) →
      ∃ data : Bytes, data.length = n ∧ chars.map Char.toLower = data.flatMap digitsOf := by
  -- On the number of bytes, for whatever characters are left after the first two.
  induction n with
  | zero =>
    intro chars hlength _
    exact ⟨[], rfl, by rw [List.length_eq_zero_iff.mp hlength]; rfl⟩
  | succ n ih =>
    intro chars hlength hdigits
    obtain ⟨high, low, rest, rfl⟩ : ∃ high low rest, chars = high :: low :: rest := by
      match chars, hlength with
      | high :: low :: rest, _ => exact ⟨high, low, rest, rfl⟩
    obtain ⟨h, hh, hhigh⟩ := exists_toLower_of_mem_digits high (hdigits high (by simp))
    obtain ⟨l, hl, hlow⟩ := exists_toLower_of_mem_digits low (hdigits low (by simp))
    obtain ⟨data, hdata, hrest⟩ := ih rest (by simp only [List.length_cons] at hlength; omega)
      fun c hc ↦ hdigits c (List.mem_cons_of_mem _ (List.mem_cons_of_mem _ hc))
    refine ⟨(UInt8.ofNat h * 16 + UInt8.ofNat l) :: data, by rw [List.length_cons, hdata], ?_⟩
    rw [List.flatMap_cons, digitsOf_halves hh hl, ← hrest, List.map_cons, List.map_cons, hhigh,
      hlow]
    rfl

/-- Texts that spell so many bytes are as many pairs of digits. -/
theorem exists_spells_iff {text : String} {n : ℕ} :
    (∃ data : Bytes, data.length = n ∧ Spells text data) ↔
      text.length = 2 * n ∧ ∀ c ∈ text.toList, c ∈ digits := by
  constructor
  · rintro ⟨data, rfl, h⟩
    exact h.digits_of
  · rintro ⟨hlength, hdigits⟩
    rw [← String.length_toList] at hlength
    obtain ⟨data, hdata, h⟩ := exists_flatMap_digitsOf n text.toList hlength hdigits
    exact ⟨data, hdata, spells_iff.mpr h⟩

/-- A text spells one byte string at most. -/
theorem Spells.unique {text : String} {data other : Bytes} (h : Spells text data)
    (hother : Spells text other) : data = other :=
  Except.ok.inj ((decode_eq_ok_iff.mpr h).symm.trans (decode_eq_ok_iff.mpr hother))

end Hexadecimal

end RoleKey.Text
