import RoleKey.Command
import RoleKey.Proofs.HexadecimalInverse
import RoleKey.Proofs.Outcomes

/-!
When a command comes to a text, and to which.

Commands are taken apart here once: `seedIn_eq_ok_iff`, `fileOrLiteral_of_isRegular` and
`fileOrLiteral_of_not_isRegular` for what they are given, `parseKey_result_eq_ok_iff` for the key
that verifies, and one statement for each command that reads a key or a signature.
-/

set_option autoImplicit false
set_option relaxedAutoImplicit false

namespace RoleKey

namespace Failure

theorem ofKey_eq_ok_iff {α : Type} {task : Option Task} {outcome : Except KeyError α} {a : α} :
    ofKey task outcome = .ok a ↔ outcome = .ok a :=
  mapError_eq_ok_iff

theorem ofFile_eq_ok_iff {α : Type} {task : Task} {outcome : Except ReadFault α} {a : α} :
    ofFile task outcome = .ok a ↔ outcome = .ok a :=
  mapError_eq_ok_iff

end Failure

/-- A file is read as a text exactly if its bytes are those of the text. -/
theorem Files.readText_eq_ok_iff {files : Files} {path content : String} :
    files.readText path = .ok content ↔ files.read path = .ok (Text.utf8 content) := by
  rw [Files.readText, bind_eq_ok_iff]
  constructor
  · rintro ⟨bytes, hbytes, hcontent⟩
    cases htext : Text.ofUtf8? bytes with
    | none => simp [htext] at hcontent
    | some text =>
      rw [htext] at hcontent
      obtain rfl : text = content := Except.ok.inj hcontent
      rw [hbytes, Text.ofUtf8?_eq_some_iff.mp htext]
  · intro h
    refine ⟨_, h, ?_⟩
    rw [Text.ofUtf8?_utf8]
    rfl

namespace Command

variable {S : Scheme} {files : Files}

/-! ### What commands are given -/

/-- The text of a seed file is its content without the blanks around it, if that is not nothing. -/
theorem seedIn_eq_ok_iff {path text : String} :
    seedIn files path = .ok text ↔
      ∃ content, files.readText path = .ok content ∧ Text.trim content = text ∧ text ≠ "" := by
  rw [seedIn, bind_eq_ok_iff]
  refine exists_congr fun content ↦ ?_
  rw [Failure.ofFile_eq_ok_iff]
  refine and_congr_right fun _ ↦ ?_
  by_cases hempty : Text.trim content = ""
  · rw [hempty]
    exact ⟨fun h ↦ (nomatch h), fun ⟨htext, hne⟩ ↦ absurd htext.symm hne⟩
  · have hfull : (Text.trim content).isEmpty = false := String.isEmpty_eq_false_iff.mpr hempty
    simp only [hfull, Bool.false_eq_true, if_false]
    constructor
    · intro h
      obtain rfl := Except.ok.inj h
      exact ⟨rfl, hempty⟩
    · rintro ⟨rfl, -⟩
      rfl

/-- A value that names no regular file is taken as it is, without the blanks around it. -/
theorem fileOrLiteral_of_not_isRegular {value : String} (h : (files value).isRegular = false) :
    fileOrLiteral files value = .ok (Text.trim value) := by
  rw [fileOrLiteral, h]
  rfl

/-- A value that names a regular file stands for its content without the blanks around it. -/
theorem fileOrLiteral_of_isRegular {value content : String} (h : (files value).isRegular = true)
    (hcontent : files.readText value = .ok content) :
    fileOrLiteral files value = .ok (Text.trim content) := by
  rw [fileOrLiteral, h, hcontent]
  rfl

theorem loadSeed_result_eq_ok_iff {path : String} {pair : KeyPair} :
    (loadSeed S files path).result = .ok pair ↔
      ∃ text, seedIn files path = .ok text ∧ KeyPair.ofSeed S text = .ok pair := by
  rw [loadSeed, Run.result_bind, bind_eq_ok_iff]
  exact exists_congr fun text ↦ and_congr_right fun _ ↦ Failure.ofKey_eq_ok_iff

/-- The pair of a key's text comes from the constructor that the claimed role tells. -/
theorem parseKey_result_eq_ok_iff {text : String} {pair : KeyPair} :
    (parseKey S text).result = .ok pair ↔
      (if KeyText.roleOf text = some .seed then KeyPair.ofSeed S text
        else KeyPair.ofAnyPublicKey text) = .ok pair := by
  rw [parseKey]
  by_cases hseed : KeyText.roleOf text = some .seed
  · rw [if_pos hseed, if_pos hseed]
    exact Failure.ofKey_eq_ok_iff
  · rw [if_neg hseed, if_neg hseed]
    exact Failure.ofKey_eq_ok_iff

theorem parseSignature_eq_ok_iff {text : String} {signature : Bytes} :
    parseSignature text = .ok signature ↔ Text.Hexadecimal.decode text = .ok signature :=
  mapError_eq_ok_iff

/-! ### Commands -/

theorem publicKey_result_eq_ok_iff {inkey printed : String} :
    (publicKey S files inkey).result = .ok printed ↔
      ∃ text pair, seedIn files inkey = .ok text ∧ KeyPair.ofSeed S text = .ok pair ∧
        pair.publicKey S = .ok printed := by
  rw [publicKey, Run.result_bind, bind_eq_ok_iff]
  simp only [loadSeed_result_eq_ok_iff, Run.result_of, Failure.ofKey_eq_ok_iff]
  constructor
  · rintro ⟨pair, ⟨text, htext, hpair⟩, hprinted⟩
    exact ⟨text, pair, htext, hpair, hprinted⟩
  · rintro ⟨text, pair, htext, hpair, hprinted⟩
    exact ⟨pair, ⟨text, htext, hpair⟩, hprinted⟩

theorem sign_result_eq_ok_iff {inkey data printed : String} :
    (sign S files inkey data).result = .ok printed ↔
      ∃ text pair content signature, seedIn files inkey = .ok text ∧
        KeyPair.ofSeed S text = .ok pair ∧ files.read data = .ok content ∧
        pair.sign S content = .ok signature ∧ Text.Hexadecimal.encode signature = printed := by
  rw [sign, Run.result_bind, bind_eq_ok_iff]
  simp only [loadSeed_result_eq_ok_iff, Run.result_bind, Run.result_of, Run.result_emit,
    Run.result_pure, bind_eq_ok_iff, Failure.ofKey_eq_ok_iff, Failure.ofFile_eq_ok_iff,
    Except.ok.injEq]
  constructor
  · rintro ⟨pair, ⟨text, htext, hpair⟩, content, hcontent, signature, hsignature, -, -, hprinted⟩
    exact ⟨text, pair, content, signature, htext, hpair, hcontent, hsignature, hprinted⟩
  · rintro ⟨text, pair, content, signature, htext, hpair, hcontent, hsignature, hprinted⟩
    exact ⟨pair, ⟨text, htext, hpair⟩, content, hcontent, signature, hsignature, (), trivial,
      hprinted⟩

theorem verify_result_eq_ok_iff {key signature data printed : String} :
    (verify S files key signature data).result = .ok printed ↔
      ∃ keyText pair signatureText signatureBytes content,
        fileOrLiteral files key = .ok keyText ∧ (parseKey S keyText).result = .ok pair ∧
        fileOrLiteral files signature = .ok signatureText ∧
        Text.Hexadecimal.decode signatureText = .ok signatureBytes ∧
        files.read data = .ok content ∧ pair.verify S content signatureBytes = .ok () ∧
        "Verified OK" = printed := by
  rw [verify, Run.result_bind, bind_eq_ok_iff]
  simp only [Run.result_bind, Run.result_of, Run.result_pure, bind_eq_ok_iff,
    Failure.ofKey_eq_ok_iff, Failure.ofFile_eq_ok_iff, parseSignature_eq_ok_iff, Except.ok.injEq]
  constructor
  · rintro ⟨keyText, hkey, pair, hpair, signatureText, hsignature, bytes, hbytes, content, hcontent,
      ⟨⟩, hverified, hprinted⟩
    exact ⟨keyText, pair, signatureText, bytes, content, hkey, hpair, hsignature, hbytes, hcontent,
      hverified, hprinted⟩
  · rintro ⟨keyText, pair, signatureText, bytes, content, hkey, hpair, hsignature, hbytes, hcontent,
      hverified, hprinted⟩
    exact ⟨keyText, hkey, pair, hpair, signatureText, hsignature, bytes, hbytes, content, hcontent,
      (), hverified, hprinted⟩

end Command

end RoleKey
