import Mathlib.Data.List.TakeWhile
import RoleKey.Role.Json
import RoleKey.Text.Record

/-!
Reading a record back from its JSON text.

`Record.read?` reads an object whose members are all scalars, with white space wherever JSON allows
it and strings by the rules of `Role.Json`; it is written without regard to how records are printed.
A printed character inside quotes is read as that character (`stringFrom_escapedChar`), so a quoted
text is read as that text (`string?_quoted`), a scalar as that scalar (`scalar?_json`), and a member
as that member (`member?_memberChars`). `read?_pretty` says that every record is read back from its
text of a member to a line.
-/

set_option autoImplicit false
set_option relaxedAutoImplicit false

namespace RoleKey.Text

/-! ### Reading -/

/-- A number without a sign, a fraction or an exponent, and what follows it. It has no leading
zeros. -/
def number? (s : List Char) : Option (Scalar × List Char) :=
  let digits := s.takeWhile Char.isDigit
  let n := Nat.ofDigitChars 10 digits 0
  if digits = n.repr.toList then some (.number n, s.dropWhile Char.isDigit) else none

/-- A scalar, and what follows it. -/
def scalar? : List Char → Option (Scalar × List Char)
  | 'n' :: 'u' :: 'l' :: 'l' :: rest => some (.null, rest)
  | 't' :: 'r' :: 'u' :: 'e' :: rest => some (.bool true, rest)
  | 'f' :: 'a' :: 'l' :: 's' :: 'e' :: rest => some (.bool false, rest)
  | '"' :: rest => do
    let (text, rest) ← (Role.Json.string? rest).toOption
    return (.text text, rest)
  | s => number? s

/-- A member behind white space, and what follows it. -/
def member? (s : List Char) : Option ((String × Scalar) × List Char) :=
  match s.dropWhile Role.Json.isBlank with
  | '"' :: rest => do
    let (name, rest) ← (Role.Json.string? rest).toOption
    let rest ← (Role.Json.expect ':' rest).toOption
    let (value, rest) ← scalar? rest
    return ((name, value), rest)
  | _ => none

/-- Members up to the brace that closes their object, and what follows it. Each round reads one
member, so the length of the text is fuel enough. -/
def members? : Nat → List Char → Option (Record × List Char)
  | 0, _ => none
  | fuel + 1, s => do
    let (member, rest) ← member? s
    match rest.dropWhile Role.Json.isBlank with
    | ',' :: rest => do
      let (others, rest) ← members? fuel rest
      return (member :: others, rest)
    | '\x7d' :: rest => return ([member], rest)
    | _ => none

/-- The members of an object whose opening brace has been read, and what follows it. -/
def object? (s : List Char) : Option (Record × List Char) :=
  match s.dropWhile Role.Json.isBlank with
  | '\x7d' :: rest => some ([], rest)
  | _ => members? s.length s

/-- The record of a JSON text that holds nothing else. -/
def Record.read? (text : String) : Option Record :=
  match text.toList.dropWhile Role.Json.isBlank with
  | '\x7b' :: rest => do
    let (record, rest) ← object? rest
    if rest.all Role.Json.isBlank then return record else none
  | _ => none

/-! ### Strings -/

open Role.Json (stringFrom string?)

theorem hexValue?_digit : ∀ value < 16,
    Role.Json.hexValue? (Hexadecimal.digit value) = some value := by decide

/-- The four digits of a control character are read as that character. -/
theorem escaped?_control {c : Char} (hc : c.toNat < 0x20) (rest : List Char) :
    Role.Json.escaped? ('0' :: '0' :: (Hexadecimal.digitsOf (UInt8.ofNat c.toNat) ++ rest)) =
      .ok (c, rest) := by
  have hbyte : (UInt8.ofNat c.toNat).toNat = c.toNat := by
    rw [UInt8.toNat_ofNat']
    omega
  have hhigh := hexValue?_digit (c.toNat / 16) (by omega)
  have hlow := hexValue?_digit (c.toNat % 16) (by omega)
  have hunit :
      Role.Json.unit? ('0' :: '0' :: (Hexadecimal.digitsOf (UInt8.ofNat c.toNat) ++ rest)) =
        .ok (c.toNat, rest) := by
    have hzero : Role.Json.hexValue? '0' = some 0 := by decide
    rw [Hexadecimal.digitsOf, hbyte, List.cons_append, List.cons_append, List.nil_append,
      Role.Json.unit?, hzero, hhigh, hlow]
    simp only [Except.ok.injEq, Prod.mk.injEq, and_true]
    omega
  rw [Role.Json.escaped?, hunit]
  have hsurrogate : ¬ (0xDC00 ≤ c.toNat ∧ c.toNat ≤ 0xDFFF) := by omega
  have hplain : c.toNat < 0xD800 ∨ 0xDBFF < c.toNat := by omega
  simp only [bind, Except.bind, hsurrogate, hplain, if_true, if_false]
  simp [pure, Except.pure]

/-- Inside quotes, what is printed of a character is read as that character. -/
theorem stringFrom_escapedChar (fuel : ℕ) (sofar : List Char) (c : Char) (rest : List Char) :
    stringFrom (fuel + 1) sofar ((escapedChar c).toList ++ rest) =
      stringFrom fuel (c :: sofar) rest := by
  by_cases hcontrol : c.toNat < 0x20
  · -- Some control characters have an escape of one letter.
    unfold escapedChar
    split <;> try rfl
    rw [if_pos hcontrol]
    simp only [String.toList_append, String.toList_ofList]
    change stringFrom (fuel + 1) sofar
      ('\\' :: 'u' :: '0' :: '0' :: (Hexadecimal.digitsOf (UInt8.ofNat c.toNat) ++ rest)) = _
    conv => lhs; unfold stringFrom
    rw [if_neg (by decide), if_pos rfl]
    simp only [escaped?_control hcontrol]
    rfl
  · unfold escapedChar
    split <;> try rfl
    rename_i hquote hbackslash _ _ _ _ _
    rw [if_neg hcontrol, Char.toString_eq_singleton, String.toList_singleton,
      List.singleton_append]
    conv => lhs; unfold stringFrom
    rw [if_neg hquote, if_neg hbackslash, if_neg hcontrol]

/-- Nothing is printed of no character. -/
theorem length_escapedChar_pos (c : Char) : 0 < (escapedChar c).toList.length := by
  unfold escapedChar
  split <;> try decide
  split
  · simp
  · simp [Char.toString_eq_singleton]

theorem length_flatMap_escapedChar (s : List Char) :
    s.length ≤ (s.flatMap fun c ↦ (escapedChar c).toList).length := by
  induction s with
  | nil => simp
  | cons c s ih =>
    have := length_escapedChar_pos c
    rw [List.flatMap_cons, List.length_append, List.length_cons]
    omega

/-- A printed text is read up to the quote behind it. -/
theorem stringFrom_escaped (s rest : List Char) : ∀ (fuel : ℕ) (sofar : List Char),
    s.length < fuel →
    stringFrom fuel sofar (s.flatMap (fun c ↦ (escapedChar c).toList) ++ '"' :: rest) =
      .ok (String.ofList (sofar.reverse ++ s), rest) := by
  induction s with
  | nil =>
    intro fuel sofar hfuel
    obtain ⟨fuel, rfl⟩ : ∃ n, fuel = n + 1 := ⟨fuel - 1, by omega⟩
    rw [List.flatMap_nil, List.nil_append, List.append_nil]
    conv => lhs; unfold stringFrom
    rw [if_pos rfl]
  | cons c s ih =>
    intro fuel sofar hfuel
    rw [List.length_cons] at hfuel
    obtain ⟨fuel, rfl⟩ : ∃ n, fuel = n + 1 := ⟨fuel - 1, by omega⟩
    rw [List.flatMap_cons, List.append_assoc, stringFrom_escapedChar, ih fuel _ (by omega),
      List.reverse_cons, List.append_assoc, List.singleton_append]

theorem toList_quoted (s : String) :
    (quoted s).toList = '"' :: (s.toList.flatMap (fun c ↦ (escapedChar c).toList) ++ ['"']) := by
  rw [quoted, String.toList_append, String.toList_append, String.toList_join, List.flatMap_map]
  rfl

/-- A text between quotes is read as that text. -/
theorem string?_quoted (s : String) (rest : List Char) :
    ∃ behind, (quoted s).toList ++ rest = '"' :: behind ∧ string? behind = .ok (s, rest) := by
  refine ⟨s.toList.flatMap (fun c ↦ (escapedChar c).toList) ++ '"' :: rest, ?_, ?_⟩
  · rw [toList_quoted, List.cons_append, List.append_assoc, List.singleton_append]
  · have hlength := length_flatMap_escapedChar s.toList
    rw [string?, stringFrom_escaped s.toList rest _ []
      (by rw [List.length_append, List.length_cons]; omega),
      List.reverse_nil, List.nil_append, String.ofList_toList]

/-! ### Scalars -/

theorem number?_repr (n : ℕ) {c : Char} (hc : c.isDigit = false) (rest : List Char) :
    number? (n.repr.toList ++ c :: rest) = some (.number n, c :: rest) := by
  have hdigits : ∀ d ∈ n.repr.toList, d.isDigit = true := by
    intro d hd
    rw [Nat.toList_repr] at hd
    exact Nat.isDigit_of_mem_toDigits (by decide) (by decide) hd
  have htake : (n.repr.toList ++ c :: rest).takeWhile Char.isDigit = n.repr.toList := by
    rw [List.takeWhile_append_of_pos hdigits, List.takeWhile_cons_of_neg (by simp [hc]),
      List.append_nil]
  have hdrop : (n.repr.toList ++ c :: rest).dropWhile Char.isDigit = c :: rest := by
    rw [List.dropWhile_append_of_pos hdigits, List.dropWhile_cons_of_neg (by simp [hc])]
  have hvalue : Nat.ofDigitChars 10 n.repr.toList 0 = n := by
    rw [Nat.toList_repr, Nat.ofDigitChars_toDigits (by decide) (by decide)]
  simp only [number?, htake, hdrop, hvalue, if_true]

/-- A number is printed with a digit first. -/
theorem repr_eq_cons (n : ℕ) : ∃ d digits, n.repr.toList = d :: digits ∧ d.isDigit = true := by
  obtain ⟨d, digits, hn⟩ := List.exists_cons_of_ne_nil (Nat.toDigits_ne_nil (n := n) (b := 10))
  refine ⟨d, digits, by rw [Nat.toList_repr, hn], ?_⟩
  refine Nat.isDigit_of_mem_toDigits (b := 10) (n := n) (by decide) (by decide) ?_
  rw [hn]
  exact List.mem_cons_self

/-- A text that begins with a digit is read as a number. -/
theorem scalar?_digit {d : Char} (hd : d.isDigit = true) (rest : List Char) :
    scalar? (d :: rest) = number? (d :: rest) := by
  unfold scalar?
  split <;> simp_all [Char.isDigit]

/-- A scalar is read up to any character that is no digit. -/
theorem scalar?_json (value : Scalar) {c : Char} (hc : c.isDigit = false) (rest : List Char) :
    scalar? (value.json.toList ++ c :: rest) = some (value, c :: rest) := by
  cases value with
  | null => rfl
  | bool b => cases b <;> rfl
  | number n =>
    change scalar? (n.repr.toList ++ c :: rest) = _
    obtain ⟨d, digits, hn, hd⟩ := repr_eq_cons n
    rw [← number?_repr n hc rest, hn, List.cons_append, scalar?_digit hd]
  | text s =>
    obtain ⟨behind, hquoted, hread⟩ := string?_quoted s (c :: rest)
    rw [Scalar.json, hquoted]
    simp [scalar?, hread, Except.toOption]

/-- A scalar does not begin with white space. -/
theorem dropWhile_json (value : Scalar) (rest : List Char) :
    (value.json.toList ++ rest).dropWhile Role.Json.isBlank = value.json.toList ++ rest := by
  cases value with
  | null => rfl
  | bool b => cases b <;> rfl
  | number n =>
    change (n.repr.toList ++ rest).dropWhile _ = n.repr.toList ++ rest
    obtain ⟨d, digits, hn, hd⟩ := repr_eq_cons n
    rw [hn, List.cons_append, List.dropWhile_cons_of_neg]
    intro hblank
    simp only [Role.Json.isBlank, Bool.or_eq_true, beq_iff_eq] at hblank
    obtain ((rfl | rfl) | rfl) | rfl := hblank <;> cases hd
  | text s =>
    rw [Scalar.json, toList_quoted]
    rfl

/-! ### Members -/

/-- The characters of a member on a line of its own. -/
def memberChars (member : String × Scalar) : List Char :=
  ("  " ++ quoted member.1 ++ ": " ++ member.2.json).toList

/-- A member begins with a quote behind white space. -/
theorem dropWhile_memberChars (member : String × Scalar) (rest : List Char) :
    (memberChars member ++ rest).dropWhile Role.Json.isBlank =
      (quoted member.1).toList ++ ':' :: ' ' :: (member.2.json.toList ++ rest) := by
  simp only [memberChars, String.toList_append, List.append_assoc, toList_quoted]
  rfl

theorem member?_memberChars (member : String × Scalar) {c : Char} (hc : c.isDigit = false)
    (rest : List Char) :
    member? (memberChars member ++ c :: rest) = some (member, c :: rest) := by
  obtain ⟨name, value⟩ := member
  obtain ⟨behind, hquoted, hread⟩ :=
    string?_quoted name (':' :: ' ' :: (value.json.toList ++ c :: rest))
  have hcolon : Role.Json.expect ':' (':' :: ' ' :: (value.json.toList ++ c :: rest)) =
      .ok (value.json.toList ++ c :: rest) := by
    change Except.ok ((value.json.toList ++ c :: rest).dropWhile Role.Json.isBlank) = _
    rw [dropWhile_json]
  rw [member?, dropWhile_memberChars, hquoted]
  simp only [hread, hcolon, scalar?_json value hc, Except.toOption, Option.bind_eq_bind,
    Option.bind_some, Option.pure_def]

/-- Members may begin on a new line. -/
theorem members?_newline (fuel : ℕ) (s : List Char) :
    members? fuel ('\n' :: s) = members? fuel s := by
  cases fuel <;> rfl

/-- The members of an object, a member to a line, up to the brace on a line of its own. -/
theorem members?_intercalate (record : Record) (hne : record ≠ []) (rest : List Char) :
    ∀ fuel, record.length ≤ fuel →
    members? fuel (",\n".toList.intercalate (record.map memberChars) ++
      '\n' :: '\x7d' :: rest) = some (record, rest) := by
  induction record with
  | nil => exact absurd rfl hne
  | cons member others ih =>
    intro fuel hfuel
    rw [List.length_cons] at hfuel
    obtain ⟨fuel, rfl⟩ : ∃ n, fuel = n + 1 := ⟨fuel - 1, by omega⟩
    cases others with
    | nil =>
      rw [List.map_singleton, List.intercalate_singleton, members?,
        member?_memberChars member (by decide)]
      rfl
    | cons next others =>
      have hlater := ih (List.cons_ne_nil _ _) fuel (by omega)
      rw [List.map_cons, List.map_cons, List.intercalate_cons_cons, ← List.map_cons,
        List.append_assoc, List.append_assoc]
      change members? (fuel + 1) (memberChars member ++ ',' :: '\n' ::
        (",\n".toList.intercalate ((next :: others).map memberChars) ++
          '\n' :: '\x7d' :: rest)) = _
      rw [members?, member?_memberChars member (by decide)]
      simp only [Option.bind_eq_bind, Option.bind_some,
        List.dropWhile_cons_of_neg (show ¬ Role.Json.isBlank ',' = true by decide),
        members?_newline, hlater, Option.pure_def]

theorem length_le_intercalate (record : Record) :
    record.length ≤ (",\n".toList.intercalate (record.map memberChars)).length := by
  induction record with
  | nil => simp
  | cons member others ih =>
    have hmember : 0 < (memberChars member).length := by
      simp only [memberChars, String.toList_append, List.length_append, toList_quoted,
        List.length_cons]
      omega
    cases others with
    | nil =>
      rw [List.map_singleton, List.intercalate_singleton, List.length_singleton]
      exact hmember
    | cons next others =>
      rw [List.map_cons, List.map_cons, List.intercalate_cons_cons, ← List.map_cons,
        List.length_append, List.length_append, List.length_cons]
      omega

theorem toList_pretty (record : Record) :
    record.pretty.toList = '\x7b' :: '\n' ::
      (",\n".toList.intercalate (record.map memberChars) ++ ['\n', '\x7d']) := by
  rw [Record.pretty, String.toList_append, String.toList_append, String.toList_intercalate,
    List.map_map]
  rfl

theorem exists_quote_of_members (member : String × Scalar) (others : Record)
    (rest : List Char) :
    ∃ behind, ('\n' :: (",\n".toList.intercalate ((member :: others).map memberChars) ++
      rest)).dropWhile Role.Json.isBlank = '"' :: behind := by
  have hnewline (s : List Char) : ('\n' :: s).dropWhile Role.Json.isBlank =
      s.dropWhile Role.Json.isBlank := rfl
  cases others with
  | nil =>
    rw [hnewline, List.map_singleton, List.intercalate_singleton, dropWhile_memberChars,
      toList_quoted]
    exact ⟨_, rfl⟩
  | cons next others =>
    rw [hnewline, List.map_cons, List.map_cons, List.intercalate_cons_cons, List.append_assoc,
      List.append_assoc, dropWhile_memberChars, toList_quoted]
    exact ⟨_, rfl⟩

/-- An object that begins with a member is read by its members. -/
theorem object?_quote {s behind : List Char}
    (hs : s.dropWhile Role.Json.isBlank = '"' :: behind) : object? s = members? s.length s := by
  unfold object?
  rw [hs]
  rfl

theorem object?_intercalate (record : Record) :
    object? ('\n' :: (",\n".toList.intercalate (record.map memberChars) ++ ['\n', '\x7d'])) =
      some (record, []) := by
  cases record with
  | nil => rfl
  | cons member others =>
    have hlength := length_le_intercalate (member :: others)
    have hmembers := members?_intercalate (member :: others) (List.cons_ne_nil _ _) []
    obtain ⟨behind, hhead⟩ := exists_quote_of_members member others ['\n', '\x7d']
    rw [object?_quote hhead, members?_newline, hmembers]
    rw [List.length_cons (a := '\n'), List.length_append]
    omega

/-- **Every record is read back** from its text of a member to a line. -/
theorem read?_pretty (record : Record) : Record.read? record.pretty = some record := by
  rw [Record.read?, toList_pretty, List.dropWhile_cons_of_neg (by decide)]
  simp only [object?_intercalate, Option.bind_eq_bind, Option.bind_some, List.all_nil, if_true,
    Option.pure_def]

end RoleKey.Text
