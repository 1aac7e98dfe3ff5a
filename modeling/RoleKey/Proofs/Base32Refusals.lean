import Mathlib.Data.List.Basic
import Mathlib.Data.Set.List
import RoleKey.Proofs.Base32Bijection

/-!
Which texts are no base 32.

A digit string is read exactly if the bits behind its last whole byte are fewer than five and all
zero (`exists_bytesFrom_iff`): any such bits are a filler, and the whole bytes in front of them are
the bits of a byte string (`exists_byteBits_eq`). So a text is refused for one of three reasons
(`decode_eq_invalidEncoding_iff`): a character outside the alphabet, a count of characters that
leaves five bits or more, or a bit that is set behind the last byte. `read_iff_written` puts this
beside the bijection between byte strings and the texts that are read.
-/

set_option autoImplicit false
set_option relaxedAutoImplicit false

namespace RoleKey

/-- Bits that make whole bytes are those of a byte string. -/
theorem exists_byteBits_eq {bits : List Bool} {n : ℕ} (hlength : bits.length = 8 * n) :
    ∃ data, byteBits data = bits := by
  induction n generalizing bits with
  | zero => exact ⟨[], (List.eq_nil_of_length_eq_zero hlength).symm⟩
  | succ n ih =>
    obtain ⟨rest, hrest⟩ := ih (by rw [List.length_drop]; omega : (bits.drop 8).length = 8 * n)
    have hfirst : (bits.take 8).length = 8 := by
      rw [List.length_take]
      omega
    have hbyte : bitsOf 8 (UInt8.ofNat (valueOf (bits.take 8))).toNat = bits.take 8 := by
      have hbits := bitsOf_valueOf (bits.take 8)
      rw [hfirst] at hbits
      rw [UInt8.toNat_ofNat', bitsOf_mod (Nat.le_refl 8), hbits]
    exact ⟨UInt8.ofNat (valueOf (bits.take 8)) :: rest, by
      rw [byteBits_cons, hbyte, hrest, List.take_append_drop]⟩

namespace Base32

/-! ### What is left over -/

/-- The bits of a digit string behind the last whole byte that they make. -/
def leftover (ds : List Digit) : List Bool := (digitBits ds).drop (8 * (5 * ds.length / 8))

theorem length_leftover (ds : List Digit) : (leftover ds).length = 5 * ds.length % 8 := by
  rw [leftover, List.length_drop, length_digitBits]
  omega

/-- A digit string is read exactly if fewer than five bits are left over and none of them is set. -/
theorem exists_bytesFrom_iff {ds : List Digit} :
    (∃ data, bytesFrom .empty ds = some data) ↔
      (leftover ds).length < 5 ∧ true ∉ leftover ds := by
  have hempty : Register.empty.Fits 8 := Register.fits_empty.mono (by decide)
  simp only [bytesFrom_eq_some_iff hempty, Register.held_empty, List.nil_append]
  constructor
  · rintro ⟨data, filler, hfiller, hbits⟩
    have hcount := length_of_digitBits_eq hbits
    have hwhole : 5 * ds.length / 8 = data.length := by omega
    have hleft : leftover ds = List.replicate filler false := by
      rw [leftover, hwhole, hbits, List.drop_left' (length_byteBits data)]
    rw [hleft, List.length_replicate]
    exact ⟨hfiller, by simp⟩
  · rintro ⟨hfew, hclear⟩
    have hwhole : ((digitBits ds).take (8 * (5 * ds.length / 8))).length =
        8 * (5 * ds.length / 8) := by
      rw [List.length_take, length_digitBits]
      omega
    obtain ⟨data, hdata⟩ := exists_byteBits_eq hwhole
    exact ⟨data, _, hfew,
      by rw [← eq_replicate_false hclear, hdata, leftover, List.take_append_drop]⟩

/-! ### Texts -/

theorem mem_alphabet_iff {c : Char} : c ∈ alphabet.toList ↔ ∃ d, letter d = c := by
  simp [alphabet]

/-- A text whose characters all stand in the alphabet is that of digits. -/
theorem exists_digits_iff {text : String} :
    (∃ ds : List Digit, text = String.ofList (ds.map letter)) ↔
      ∀ c ∈ text.toList, c ∈ alphabet.toList := by
  simp only [mem_alphabet_iff]
  constructor
  · rintro ⟨ds, rfl⟩ c hc
    rw [String.toList_ofList] at hc
    obtain ⟨d, -, hd⟩ := List.mem_map.mp hc
    exact ⟨d, hd⟩
  · intro h
    have hrange : text.toList ∈ Set.range (List.map letter) := by
      rw [Set.range_list_map]
      exact h
    obtain ⟨ds, hds⟩ := hrange
    exact ⟨ds, by rw [hds, String.ofList_toList]⟩

/-- The text of digits is read exactly if the digits are. -/
theorem decode_ofDigits (ds : List Digit) :
    decode (String.ofList (ds.map letter)) =
      match bytesFrom .empty ds with
      | some data => .ok data
      | none => .error .invalidEncoding := by
  rw [decode, digitsOfText_eq_some_iff.mpr rfl]
  rfl

/-- The counts of digits that leave five bits or more behind the last whole byte. -/
theorem length_leftover_lt_iff (ds : List Digit) :
    (leftover ds).length < 5 ↔ ds.length % 8 ∉ [1, 3, 6] := by
  have hrest : ∀ rest < 8, 5 * rest % 8 < 5 ↔ rest ∉ [1, 3, 6] := by decide
  have hmod : 5 * ds.length % 8 = 5 * (ds.length % 8) % 8 := by rw [Nat.mul_mod_mod]
  rw [length_leftover, hmod]
  exact hrest _ (Nat.mod_lt _ (by decide))

/-- A text of digits is refused exactly for its count of characters or for a bit that is set behind
the last byte. -/
theorem decode_ofDigits_eq_invalidEncoding_iff (ds : List Digit) :
    decode (String.ofList (ds.map letter)) = .error .invalidEncoding ↔
      ds.length % 8 ∈ [1, 3, 6] ∨ true ∈ leftover ds := by
  have hread : (∃ data, bytesFrom .empty ds = some data) ↔
      ds.length % 8 ∉ [1, 3, 6] ∧ true ∉ leftover ds := by
    rw [exists_bytesFrom_iff, length_leftover_lt_iff]
  rw [decode_ofDigits]
  cases hbytes : bytesFrom .empty ds with
  | some data =>
    obtain ⟨hcount, hclear⟩ := hread.mp ⟨data, hbytes⟩
    exact iff_of_false (fun h ↦ nomatch h) (not_or.mpr ⟨hcount, hclear⟩)
  | none =>
    refine iff_of_true rfl ?_
    by_contra hneither
    obtain ⟨data, hdata⟩ := hread.mpr (not_or.mp hneither)
    rw [hbytes] at hdata
    cases hdata

/-- A text is refused exactly for a character outside the alphabet, for a count of characters that
no byte string has, or for a bit that is set behind the last byte. -/
theorem decode_eq_invalidEncoding_iff {text : String} :
    decode text = .error .invalidEncoding ↔
      (∃ c ∈ text.toList, c ∉ alphabet.toList) ∨ text.length % 8 ∈ [1, 3, 6] ∨
        ∃ ds : List Digit, text = String.ofList (ds.map letter) ∧ true ∈ leftover ds := by
  by_cases hdigits : ∃ ds : List Digit, text = String.ofList (ds.map letter)
  · have hinside := exists_digits_iff.mp hdigits
    obtain ⟨ds, rfl⟩ := hdigits
    have hnone : ¬ ∃ c ∈ (String.ofList (ds.map letter)).toList, c ∉ alphabet.toList :=
      fun ⟨c, hc, houtside⟩ ↦ houtside (hinside c hc)
    have hsame : (∃ other : List Digit,
        String.ofList (ds.map letter) = String.ofList (other.map letter) ∧
          true ∈ leftover other) ↔ true ∈ leftover ds := by
      constructor
      · rintro ⟨other, hother, hset⟩
        rwa [letter_injective.list_map (String.ofList_injective hother)]
      · exact fun hset ↦ ⟨ds, rfl, hset⟩
    rw [decode_ofDigits_eq_invalidEncoding_iff, hsame, String.length_ofList, List.length_map,
      or_iff_right hnone]
  · have houtside : ∃ c ∈ text.toList, c ∉ alphabet.toList := by
      by_contra hnone
      refine hdigits (exists_digits_iff.mpr fun c hc ↦ ?_)
      by_contra houtside
      exact hnone ⟨c, hc, houtside⟩
    refine iff_of_true ?_ (Or.inl houtside)
    cases hdecode : decode text with
    | error e => rw [decode_error hdecode]
    | ok data =>
      exact absurd ⟨digits data, (decode_eq_ok_iff.mp hdecode).symm⟩ hdigits

/-- A padding character, a small letter, and a character that is not in the range of ASCII do not
stand in the alphabet. -/
theorem not_mem_alphabet {c : Char} (h : c = '=' ∨ c.isLower = true ∨ 128 ≤ c.toNat) :
    c ∉ alphabet.toList := by
  have hletters : ∀ d, letter d ≠ '=' ∧ (letter d).isLower = false ∧ (letter d).toNat < 128 := by
    decide
  rw [mem_alphabet_iff]
  rintro ⟨d, rfl⟩
  obtain ⟨hpadding, hlower, hascii⟩ := hletters d
  rcases h with heq | hsmall | hwide
  · exact hpadding heq
  · rw [hlower] at hsmall
    cases hsmall
  · omega

/-- Byte strings and the texts that are read correspond one to one: a text is read as a byte string
exactly if it is the text of these bytes, and any other text is refused for its encoding. Refused
are exactly the texts with a character outside the alphabet (a padding character, a small letter or
any character that is not ASCII, for instance), those whose count of characters leaves one, three or
six when groups of eight are taken off, and those of digits with a bit set behind the last byte. -/
theorem read_iff_written (text : String) :
    (∀ data : Bytes, decode text = .ok data ↔ encode data = text) ∧
    ((∀ data : Bytes, encode data ≠ text) → decode text = .error .invalidEncoding) ∧
    (decode text = .error .invalidEncoding ↔
      (∃ c ∈ text.toList, c ∉ alphabet.toList) ∨ text.length % 8 ∈ [1, 3, 6] ∨
        ∃ ds : List Digit, text = String.ofList (ds.map letter) ∧ true ∈ leftover ds) ∧
    ∀ c : Char, c = '=' ∨ c.isLower = true ∨ 128 ≤ c.toNat → c ∉ alphabet.toList := by
  refine ⟨fun _ ↦ decode_eq_ok_iff, fun hnone ↦ ?_, decode_eq_invalidEncoding_iff,
    fun _ ↦ not_mem_alphabet⟩
  cases hdecode : decode text with
  | ok data => exact absurd (decode_eq_ok_iff.mp hdecode) (hnone data)
  | error e => rw [decode_error hdecode]

/-- One byte takes two letters. Of its two bits that are left over none may be set, it has no third
letter, and it is not padded to eight. -/
theorem read_iff_written_one_byte :
    decode "MY" = .ok [0x66] ∧
    (∀ data : Bytes, encode data ≠ "MZ") ∧ decode "MZ" = .error .invalidEncoding ∧
    decode "MYA" = .error .invalidEncoding ∧
    '=' ∉ alphabet.toList ∧ decode "MY======" = .error .invalidEncoding := by
  have hread : decode "MY" = .ok [0x66] := ((read_iff_written "MY").1 _).mpr (by decide)
  have hset : decode "MZ" = .error .invalidEncoding :=
    (read_iff_written "MZ").2.2.1.mpr (Or.inr (Or.inr ⟨[12, 25], by decide, by decide⟩))
  have hnone : ∀ data : Bytes, encode data ≠ "MZ" := by
    intro data hdata
    rw [((read_iff_written "MZ").1 data).mpr hdata] at hset
    cases hset
  have hpadding : '=' ∉ alphabet.toList := (read_iff_written "MY").2.2.2 '=' (Or.inl rfl)
  refine ⟨hread, hnone, (read_iff_written "MZ").2.1 hnone, ?_, hpadding, ?_⟩
  · exact (read_iff_written "MYA").2.2.1.mpr (Or.inr (Or.inl (by decide)))
  · exact (read_iff_written "MY======").2.2.1.mpr (Or.inl ⟨'=', by decide, hpadding⟩)

end Base32

end RoleKey
