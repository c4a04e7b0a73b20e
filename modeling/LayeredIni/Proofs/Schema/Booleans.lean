/-
# Truth values in trees and in conditions

A text counts as false in two places that do not know of each other: where it is
read as a truth value, and where a condition consists of nothing but it. Both go
by the same five words, in any letter case and between any blanks. They differ in
what else they take: a condition holds for every other text, whereas only four
words are read as true.
-/

import LayeredIni.Condition.Evaluation
import LayeredIni.Proofs.Condition.Scan
import LayeredIni.Proofs.Text.Trim
import LayeredIni.Schema.Decode

namespace LayeredIni

open LayeredIni.Text

/-- The text consists of one of the words, in any letter case and between blanks. -/
def SaysOneOf (words : List String) (text : String) : Prop :=
  ∃ left word right, text.toList = left ++ word ++ right ∧
    (∀ c ∈ left, isBlank c = true) ∧ (∀ c ∈ right, isBlank c = true) ∧
    String.ofList (lowerCase word) ∈ words

/-- There is no blank in a word of letters and digits, whatever their case. -/
theorem Text.isTrimmed_of_lowerCase {word : List Char}
    (h : (lowerCase word).all Char.isAlphanum = true) : IsTrimmed word := by
  apply isTrimmed_of_forall
  intro c hc
  have hlower := List.all_eq_true.mp h _ (List.mem_map_of_mem hc)
  exact Condition.isBlank_of_isWordChar
    (Condition.isWordChar_of_isAlphanum (isAlphanum_of_toLower hlower))

theorem saysOneOf_iff {words : List String} {text : String}
    (hwords : ∀ word ∈ words, word.toList.all Char.isAlphanum = true) :
    SaysOneOf words text ↔ isOneOf words (trim text.toList) = true := by
  rw [isOneOf_iff]
  constructor
  · rintro ⟨left, word, right, heq, hleft, hright, hmem⟩
    have htrimmed : IsTrimmed word :=
      isTrimmed_of_lowerCase (by simpa using hwords _ hmem)
    rwa [heq, trim_append_of_blank hleft hright, trim_eq_self_iff.mpr htrimmed]
  · intro hmem
    obtain ⟨left, right, heq, hleft, hright⟩ := exists_blanks_trim text.toList
    exact ⟨left, _, right, heq, hleft, hright, hmem⟩

/-- The words that are read as true. -/
def yesWords : List String :=
  ["true", "on", "yes", "1"]

/-- The words that count as false. -/
def noWords : List String :=
  ["false", "off", "no", "0", ""]

theorem Condition.isTruthy_eq_false_iff {text : String} :
    isTruthy text = false ↔ SaysOneOf noWords text := by
  have hperm : ["", "0", "false", "off", "no"].Perm noWords := by decide
  rw [saysOneOf_iff (by decide), isTruthy, Bool.not_eq_false', isOneOf_iff, isOneOf_iff,
    hperm.mem_iff]

theorem truthValue?_eq (word : List Char) :
    truthValue? word =
      if isOneOf yesWords word then some true
      else if isOneOf noWords word then some false
      else none := rfl

/-- A word for no is none for yes, so that it does not matter which are looked for first. -/
theorem truthValue?_eq_some_false_iff {text : String} :
    truthValue? (trim text.toList) = some false ↔ SaysOneOf noWords text := by
  have hdisjoint : ∀ word ∈ yesWords, word ∉ noWords := by decide
  rw [saysOneOf_iff (by decide), truthValue?_eq]
  split
  · next hyes =>
    have hno := hdisjoint _ (isOneOf_iff.mp hyes)
    rw [← isOneOf_iff] at hno
    simp [hno]
  · split
    · next hno => simp [hno]
    · next hno => simp [hno]

namespace Schema

theorem decode_boolean (text : String) :
    boolean.decode (.scalar text) =
      boolean.found text ((truthValue? (trim text.toList)).map .boolean) := rfl

theorem decode_boolean_eq_ok_iff {text : String} {value : Value} :
    boolean.decode (.scalar text) = .ok value ↔
      ∃ truth, truthValue? (trim text.toList) = some truth ∧ value = .boolean truth := by
  rw [decode_boolean]
  cases truthValue? (trim text.toList) with
  | none => simp [found]
  | some truth => simp [found, eq_comm]

/-- Conditions and truth values agree. A text is read as false exactly if the
condition that consists of it fails, which is so exactly if it says one of the words
for no. So whatever it is read as is what the condition says, and the condition holds
if it cannot be read. -/
theorem decode_boolean_agrees (scope : Scope) (operand : Operand) :
    let text := operand.text scope
    let truth := (Condition.truthy operand).eval scope
    (boolean.decode (.scalar text) = .ok (.boolean false) ↔ truth = false) ∧
      (truth = false ↔ SaysOneOf noWords text) ∧
      (∀ value, boolean.decode (.scalar text) = .ok value → value = .boolean truth) ∧
      ∀ error, boolean.decode (.scalar text) = .error error → truth = true := by
  intro text truth
  have htruth : truth = false ↔ SaysOneOf noWords text := Condition.isTruthy_eq_false_iff
  have hfalse : boolean.decode (.scalar text) = .ok (.boolean false) ↔ truth = false := by
    rw [htruth, ← truthValue?_eq_some_false_iff, decode_boolean_eq_ok_iff]
    simp
  refine ⟨hfalse, htruth, fun value hvalue => ?_, fun error herror => ?_⟩
  · obtain ⟨found, -, rfl⟩ := decode_boolean_eq_ok_iff.mp hvalue
    cases found with
    | false => rw [hfalse.mp hvalue]
    | true =>
      have hnot : truth ≠ false := fun h => by
        rw [hfalse.mpr h] at hvalue
        cases hvalue
      rw [Bool.of_not_eq_false hnot]
  · apply Bool.of_not_eq_false
    intro h
    rw [hfalse.mpr h] at herror
    cases herror

/-- A word for no between blanks, a word for yes, and a word for neither. -/
theorem decode_boolean_agrees_on_words :
    boolean.decode (.scalar "\tOff ") = .ok (.boolean false) ∧
      (Condition.truthy (.literal "\tOff ")).eval .empty = false ∧
      boolean.decode (.scalar "YES") = .ok (.boolean true) ∧
      (Condition.truthy (.literal "YES")).eval .empty = true ∧
      boolean.decode (.scalar "nope") = .error (.invalidValue "nope" boolean) ∧
      (Condition.truthy (.literal "nope")).eval .empty = true := by
  have hno : boolean.decode (.scalar "\tOff ") = .ok (.boolean false) :=
    decode_boolean_eq_ok_iff.mpr ⟨false, by decide +kernel, rfl⟩
  have hyes : boolean.decode (.scalar "YES") = .ok (.boolean true) :=
    decode_boolean_eq_ok_iff.mpr ⟨true, by decide +kernel, rfl⟩
  have hneither : boolean.decode (.scalar "nope") = .error (.invalidValue "nope" boolean) := by
    have hnone : truthValue? (trim "nope".toList) = none := by decide +kernel
    rw [decode_boolean, hnone]
    rfl
  obtain ⟨hfalse, -⟩ := decode_boolean_agrees .empty (.literal "\tOff ")
  obtain ⟨-, -, hvalue, -⟩ := decode_boolean_agrees .empty (.literal "YES")
  obtain ⟨-, -, -, herror⟩ := decode_boolean_agrees .empty (.literal "nope")
  have htruth := hvalue _ hyes
  exact ⟨hno, hfalse.mp hno, hyes, by injection htruth.symm, hneither, herror _ hneither⟩

end Schema

end LayeredIni
