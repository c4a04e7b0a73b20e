/-
# Integers in trees

A text is read as an integer of a type exactly if, without the blanks at its
ends, it denotes an integer that a word of the type stands for, and that integer
is its value. Every other text is quoted as it is in the error. So the decimal
text of an integer is read as this integer, and nothing changes in a wider type.
-/

import LayeredIni.Proofs.Number.Integer
import LayeredIni.Proofs.Text.Trim
import LayeredIni.Schema.Decode

namespace LayeredIni

open LayeredIni.Number LayeredIni.Text

/-- There is no blank in the text of an integer. -/
theorem Number.IntegerType.Denotes.isTrimmed {type : IntegerType} {text : List Char} {n : Int}
    (h : type.Denotes text n) : IsTrimmed text := by
  have hdigits (digits : List (Fin 10)) : ∀ c ∈ written digits, isBlank c = false := by
    have hdigit : ∀ digit : Fin 10, isBlank digit.val.digitChar = false := by decide
    intro c hc
    obtain ⟨digit, -, rfl⟩ := List.mem_map.mp hc
    exact hdigit digit
  apply isTrimmed_of_forall
  cases h with
  | bare => exact hdigits _
  | plus => exact List.forall_mem_cons.mpr ⟨by decide, hdigits _⟩
  | minus => exact List.forall_mem_cons.mpr ⟨by decide, hdigits _⟩

namespace Schema

variable {type : IntegerType}

theorem decode_integer (hwidth : type.width ≤ 64) (text : String) :
    (integer type).decode (.scalar text) =
      (integer type).found text ((type.parse? (trim text.toList)).map .integer) := by
  show (integer type).decodeText text = _
  rw [decodeText, if_pos hwidth]

theorem decode_integer_eq_ok_iff (hpositive : 0 < type.width) (hwidth : type.width ≤ 64)
    {text : String} {value : Value} :
    (integer type).decode (.scalar text) = .ok value ↔
      ∃ word, type.Denotes (trim text.toList) (type.ofWord word) ∧
        value = .integer (type.ofWord word) := by
  have hparsed : (integer type).decode (.scalar text) = .ok value ↔
      ∃ n, type.parse? (trim text.toList) = some n ∧ value = .integer n := by
    rw [decode_integer hwidth]
    cases type.parse? (trim text.toList) with
    | none => simp [found]
    | some n => simp [found, eq_comm]
  simp only [hparsed, IntegerType.parse?_eq_some_iff hpositive]
  constructor
  · rintro ⟨n, ⟨hdenotes, word, rfl⟩, rfl⟩
    exact ⟨word, hdenotes, rfl⟩
  · rintro ⟨word, hdenotes, rfl⟩
    exact ⟨_, ⟨hdenotes, word, rfl⟩, rfl⟩

/-- Any other text is reported as it is. -/
theorem decode_integer_eq_error (hpositive : 0 < type.width) (hwidth : type.width ≤ 64)
    {text : String} (h : ∀ word, ¬ type.Denotes (trim text.toList) (type.ofWord word)) :
    (integer type).decode (.scalar text) = .error (.invalidValue text (integer type)) := by
  have hparse : type.parse? (trim text.toList) = none := by
    by_contra hne
    obtain ⟨n, hn⟩ := Option.ne_none_iff_exists'.mp hne
    obtain ⟨hdenotes, word, rfl⟩ := (IntegerType.parse?_eq_some_iff hpositive).mp hn
    exact h word hdenotes
  rw [decode_integer hwidth, hparse]
  rfl

/-- What one type reads, every wider type of its kind reads as the same. -/
theorem decode_integer_of_width_le {wider : IntegerType} (hpositive : 0 < type.width)
    (hsigned : wider.signed = type.signed) (hle : type.width ≤ wider.width)
    (hwidth : wider.width ≤ 64) {text : String} {value : Value}
    (h : (integer type).decode (.scalar text) = .ok value) :
    (integer wider).decode (.scalar text) = .ok value := by
  obtain ⟨word, hdenotes, rfl⟩ :=
    (decode_integer_eq_ok_iff hpositive (Nat.le_trans hle hwidth)).mp h
  obtain ⟨same, hsame⟩ :=
    IntegerType.exists_ofWord_of_width_le hpositive hsigned hle ⟨word, rfl⟩
  rw [← hsame] at hdenotes ⊢
  exact (decode_integer_eq_ok_iff (Nat.lt_of_lt_of_le hpositive hle) hwidth).mpr
    ⟨same, hdenotes.of_signed_eq hsigned, rfl⟩

/-- Integers are exact. A text is read as an integer type of up to 64 bits
exactly if it denotes, between blanks, an integer that a word of the type stands
for, and its value is this integer. Any other text is quoted in the error as it
is. The decimal text of every integer of the type is read as this integer, and
what one type reads every wider type of its kind reads as the same. -/
theorem decode_integer_exact (hpositive : 0 < type.width) (hwidth : type.width ≤ 64) :
    (∀ text value, (integer type).decode (.scalar text) = .ok value ↔
      ∃ word, type.Denotes (trim text.toList) (type.ofWord word) ∧
        value = .integer (type.ofWord word)) ∧
    (∀ text, (∀ word, ¬ type.Denotes (trim text.toList) (type.ofWord word)) →
      ∃ fault, (integer type).decode (.scalar text) = .error fault ∧
        fault = .invalidValue text (integer type) ∧
        fault.message = "invalid value: string " ++ quoted text ++ ", expected " ++ type.name) ∧
    (∀ word, (integer type).decode (.scalar (toString (type.ofWord word))) =
      .ok (.integer (type.ofWord word))) ∧
    ∀ wider : IntegerType, wider.signed = type.signed → type.width ≤ wider.width →
      wider.width ≤ 64 → ∀ text value, (integer type).decode (.scalar text) = .ok value →
      (integer wider).decode (.scalar text) = .ok value := by
  refine ⟨fun _ _ => decode_integer_eq_ok_iff hpositive hwidth, ?_, ?_, ?_⟩
  · intro text hnone
    exact ⟨_, decode_integer_eq_error hpositive hwidth hnone, rfl, rfl⟩
  · intro word
    have hdenotes := type.denotes_toString_ofWord word
    refine (decode_integer_eq_ok_iff hpositive hwidth).mpr ⟨word, ?_, rfl⟩
    rw [trim_eq_self_iff.mpr hdenotes.isTrimmed]
    exact hdenotes
  · intro wider hsigned hle hwider text value hvalue
    exact decode_integer_of_width_le hpositive hsigned hle hwider hvalue

/-- The least integer of eight bits, with zeros before it and blanks around it.
Without its sign it is out of range. -/
theorem decode_integer_exact_at_least_integer :
    let byte : IntegerType := ⟨true, 8⟩
    let wider : IntegerType := ⟨true, 16⟩
    0 < byte.width ∧ byte.width ≤ 64 ∧
      (integer byte).decode (.scalar "\t-00128 ") = .ok (.integer (-128)) ∧
      (∃ fault, (integer byte).decode (.scalar " 128") = .error fault ∧
        fault.message = "invalid value: string \" 128\", expected i8") ∧
      (integer byte).decode (.scalar (toString (byte.ofWord 0x80#8))) = .ok (.integer (-128)) ∧
      (integer wider).decode (.scalar "\t-00128 ") = .ok (.integer (-128)) := by
  intro byte wider
  obtain ⟨hread, hother, hown, hwider⟩ :=
    decode_integer_exact (by decide : 0 < byte.width) (by decide)
  have htrim : trim "\t-00128 ".toList = '-' :: written [0, 0, 1, 2, 8] := by decide +kernel
  have hleast : (integer byte).decode (.scalar "\t-00128 ") = .ok (.integer (-128)) := by
    refine (hread _ _).mpr ⟨0x80#8, ?_, rfl⟩
    rw [htrim]
    exact .minus rfl (by decide)
  have hunread : ((integer byte).decode (.scalar " 128")).toBool = false := by decide +kernel
  obtain ⟨fault, hfault, -, hmessage⟩ := hother " 128" (by
    intro word hdenotes
    rw [(hread _ _).mpr ⟨word, hdenotes, rfl⟩] at hunread
    cases hunread)
  have htext : "invalid value: string " ++ quoted " 128" ++ ", expected " ++ byte.name =
      "invalid value: string \" 128\", expected i8" := by decide +kernel
  exact ⟨by decide, by decide, hleast, ⟨fault, hfault, hmessage.trans htext⟩, hown 0x80#8,
    hwider wider rfl (by decide) (by decide) _ _ hleast⟩

end Schema

end LayeredIni
