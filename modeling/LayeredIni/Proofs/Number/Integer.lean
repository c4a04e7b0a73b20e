/-
# Texts of integers

An integer is written with decimal digits, of which there can be any number, and
with at most one sign in front of them. Here this is a relation between texts
and integers of any size, and the range of a type is the set of the integers
that words of its width stand for. Reading agrees with both: what a text is read
as is the integer that it denotes, if a word stands for it, and nothing wraps.
-/

import LayeredIni.Number.Integer
import Mathlib.Data.List.Induction
import Mathlib.Data.Nat.Digits.Defs

namespace LayeredIni.Number

/-- Digits as they are written. -/
def written (digits : List (Fin 10)) : List Char :=
  digits.map fun digit => digit.val.digitChar

/-- The number that digits denote, the last of them being the units. -/
def numberOf (digits : List (Fin 10)) : Nat :=
  Nat.ofDigits 10 (digits.reverse.map Fin.val)

theorem numberOf_concat (digits : List (Fin 10)) (digit : Fin 10) :
    numberOf (digits ++ [digit]) = 10 * numberOf digits + digit := by
  rw [numberOf, List.reverse_concat, List.map_cons, Nat.ofDigits_cons, Nat.add_comm]
  rfl

/-- Reading digit by digit gives the number that the digits denote. -/
theorem ofDigitChars_written (digits : List (Fin 10)) :
    Nat.ofDigitChars 10 (written digits) 0 = numberOf digits := by
  induction digits using List.reverseRecOn with
  | nil => rfl
  | append_singleton digits digit ih =>
    rw [written, List.map_append, Nat.ofDigitChars_append, List.map_singleton,
      Nat.ofDigitChars_cons_digitChar_of_lt_ten digit.isLt, Nat.ofDigitChars_nil, numberOf_concat]
    exact congrArg (10 * · + digit.val) ih

theorem isDigit_of_mem_written {digits : List (Fin 10)} {c : Char} (h : c ∈ written digits) :
    c.isDigit = true := by
  obtain ⟨digit, -, rfl⟩ := List.mem_map.mp h
  rw [Nat.isDigit_digitChar]
  exact decide_eq_true digit.isLt

theorem exists_digitChar {c : Char} (h : c.isDigit = true) :
    ∃ digit : Fin 10, c = Nat.digitChar digit := by
  obtain ⟨hleast, hgreatest⟩ := Char.isDigit_iff_toNat.mp h
  have hleast : 48 ≤ c.toNat := hleast
  have hgreatest : c.toNat ≤ 57 := hgreatest
  have hlt : c.toNat - 48 < 10 := by omega
  refine ⟨⟨c.toNat - 48, hlt⟩, Char.toNat_inj.mp ?_⟩
  rw [Nat.toNat_digitChar_of_lt_ten hlt]
  omega

theorem exists_written {text : List Char} (h : ∀ c ∈ text, c.isDigit = true) :
    ∃ digits, text = written digits := by
  induction text with
  | nil => exact ⟨[], rfl⟩
  | cons c text ih =>
    obtain ⟨hc, htext⟩ := List.forall_mem_cons.mp h
    obtain ⟨digit, rfl⟩ := exists_digitChar hc
    obtain ⟨digits, rfl⟩ := ih htext
    exact ⟨digit :: digits, rfl⟩

/-- Natural numbers are read from one or more digits, and from nothing else. -/
theorem natural?_eq_some_iff {text : List Char} {n : Nat} :
    natural? text = some n ↔
      ∃ digits, digits ≠ [] ∧ text = written digits ∧ n = numberOf digits := by
  constructor
  · intro h
    unfold natural? at h
    split at h
    · cases h
    · next hdigits =>
      rw [Bool.or_eq_true, not_or, List.isEmpty_iff, Bool.not_eq_true', Bool.not_eq_false,
        List.all_eq_true] at hdigits
      obtain ⟨digits, rfl⟩ := exists_written hdigits.2
      refine ⟨digits, ?_, rfl, ?_⟩
      · rintro rfl
        exact hdigits.1 rfl
      · exact (Option.some.inj h).symm.trans (ofDigitChars_written digits)
  · rintro ⟨digits, hne, rfl, rfl⟩
    have hdigits : ((written digits).isEmpty || !(written digits).all Char.isDigit) = false := by
      rw [Bool.or_eq_false_iff, List.isEmpty_eq_false_iff, Bool.not_eq_false', List.all_eq_true]
      exact ⟨mt List.map_eq_nil_iff.mp hne, fun c hc => isDigit_of_mem_written hc⟩
    rw [natural?, hdigits, ← ofDigitChars_written]
    rfl

/-- The integer that a text denotes: digits, after at most one sign. A minus sign
is for types with negative numbers only. -/
inductive IntegerType.Denotes (type : IntegerType) : List Char → Int → Prop
  | bare {digits : List (Fin 10)} (h : digits ≠ []) :
    Denotes type (written digits) (numberOf digits)
  | plus {digits : List (Fin 10)} (h : digits ≠ []) :
    Denotes type ('+' :: written digits) (numberOf digits)
  | minus {digits : List (Fin 10)} (hsigned : type.signed = true) (h : digits ≠ []) :
    Denotes type ('-' :: written digits) (-numberOf digits)

namespace IntegerType

variable {type : IntegerType} {text : List Char} {n : Int}

/-- A text that starts with a digit has no sign to be read. -/
theorem unbounded?_written {digits : List (Fin 10)} (h : digits ≠ []) :
    type.unbounded? (written digits) = some (numberOf digits : Int) := by
  have hnatural : natural? (written digits) = some (numberOf digits) :=
    natural?_eq_some_iff.mpr ⟨digits, h, rfl, rfl⟩
  unfold unbounded?
  split
  · next rest hsign =>
    have hplus : '+' ∈ written digits := hsign ▸ List.mem_cons_self
    cases isDigit_of_mem_written hplus
  · next rest hsign =>
    have hminus : '-' ∈ written digits := hsign ▸ List.mem_cons_self
    cases isDigit_of_mem_written hminus
  · rw [hnatural]
    rfl

/-- Reading without regard to the range gives the integer that the text denotes. -/
theorem unbounded?_eq_some_iff : type.unbounded? text = some n ↔ type.Denotes text n := by
  constructor
  · intro h
    unfold unbounded? at h
    split at h
    · obtain ⟨natural, hnatural, rfl⟩ := Option.map_eq_some_iff.mp h
      obtain ⟨digits, hne, rfl, rfl⟩ := natural?_eq_some_iff.mp hnatural
      exact .plus hne
    · split at h
      · next hsigned =>
        obtain ⟨natural, hnatural, rfl⟩ := Option.map_eq_some_iff.mp h
        obtain ⟨digits, hne, rfl, rfl⟩ := natural?_eq_some_iff.mp hnatural
        exact .minus hsigned hne
      · cases h
    · obtain ⟨natural, hnatural, rfl⟩ := Option.map_eq_some_iff.mp h
      obtain ⟨digits, hne, rfl, rfl⟩ := natural?_eq_some_iff.mp hnatural
      exact .bare hne
  · intro h
    cases h with
    | bare hne => exact unbounded?_written hne
    | @plus digits hne =>
      have hnatural : natural? (written digits) = some (numberOf digits) :=
        natural?_eq_some_iff.mpr ⟨digits, hne, rfl, rfl⟩
      rw [unbounded?, hnatural]
      rfl
    | @minus digits hsigned hne =>
      have hnatural : natural? (written digits) = some (numberOf digits) :=
        natural?_eq_some_iff.mpr ⟨digits, hne, rfl, rfl⟩
      rw [unbounded?, if_pos hsigned, hnatural]
      rfl

/-- What a text denotes depends on the type only by whether it is signed. -/
theorem Denotes.of_signed_eq {other : IntegerType} (h : type.Denotes text n)
    (hsigned : other.signed = type.signed) : other.Denotes text n := by
  cases h with
  | bare hne => exact .bare hne
  | plus hne => exact .plus hne
  | minus htype hne => exact .minus (hsigned.trans htype) hne

/-- The integer that a word stands for, in two's complement if the type is signed. -/
def ofWord (type : IntegerType) (word : BitVec type.width) : Int :=
  if type.signed then word.toInt else word.toNat

/-- The range of a type is what words of its width stand for. -/
theorem exists_ofWord_iff (hwidth : 0 < type.width) :
    (∃ word, type.ofWord word = n) ↔ type.least ≤ n ∧ n ≤ type.greatest := by
  have hpower (exponent : Nat) : (powerOfTwo exponent : Int) = 2 ^ exponent := by
    rw [powerOfTwo, Nat.pow_eq]
    exact Nat.cast_pow 2 exponent
  unfold ofWord least greatest
  rw [hpower, hpower]
  cases type.signed with
  | true =>
    simp only [if_true]
    constructor
    · rintro ⟨word, rfl⟩
      exact ⟨word.le_toInt, Int.le_sub_one_of_lt word.toInt_lt⟩
    · rintro ⟨hleast, hgreatest⟩
      exact ⟨.ofInt type.width n,
        BitVec.toInt_ofInt_eq_self hwidth hleast (Int.lt_of_le_sub_one hgreatest)⟩
  | false =>
    simp only [Bool.false_eq_true, if_false]
    constructor
    · rintro ⟨word, rfl⟩
      exact ⟨Int.natCast_nonneg _, Int.le_sub_one_of_lt (by exact_mod_cast word.isLt)⟩
    · rintro ⟨hleast, hgreatest⟩
      obtain ⟨natural, rfl⟩ := Int.eq_ofNat_of_zero_le hleast
      have hlt : natural < 2 ^ type.width := by exact_mod_cast Int.lt_of_le_sub_one hgreatest
      exact ⟨.ofNat type.width natural, by rw [BitVec.toNat_ofNat, Nat.mod_eq_of_lt hlt]⟩

/-- A text is read as the integer that it denotes, if a word stands for it. -/
theorem parse?_eq_some_iff (hwidth : 0 < type.width) :
    type.parse? text = some n ↔ type.Denotes text n ∧ ∃ word, type.ofWord word = n := by
  rw [parse?, Option.filter_eq_some_iff, unbounded?_eq_some_iff, Bool.and_eq_true,
    decide_eq_true_iff, decide_eq_true_iff, exists_ofWord_iff hwidth]

/-- A wider type of the same kind has all integers of a type. -/
theorem exists_ofWord_of_width_le {wider : IntegerType} (hwidth : 0 < type.width)
    (hsigned : wider.signed = type.signed) (hle : type.width ≤ wider.width)
    (h : ∃ word, type.ofWord word = n) : ∃ word, wider.ofWord word = n := by
  obtain ⟨hleast, hgreatest⟩ := (exists_ofWord_iff hwidth).mp h
  refine (exists_ofWord_iff (Nat.lt_of_lt_of_le hwidth hle)).mpr ?_
  have hpower {small large : Nat} (hexponent : small ≤ large) :
      powerOfTwo small ≤ powerOfTwo large := Nat.pow_le_pow_right (by decide) hexponent
  have hless := hpower (Nat.sub_le_sub_right hle 1)
  have hall := hpower hle
  rw [least] at hleast
  rw [greatest] at hgreatest
  rw [least, greatest, hsigned]
  cases hkind : type.signed with
  | true =>
    simp only [hkind, if_true] at hleast hgreatest ⊢
    omega
  | false =>
    simp only [hkind, Bool.false_eq_true, if_false] at hleast hgreatest ⊢
    omega

/-- The digits of a natural number denote it. -/
theorem exists_written_toDigits (n : Nat) :
    ∃ digits, digits ≠ [] ∧ Nat.toDigits 10 n = written digits ∧ numberOf digits = n := by
  have hdigits : ∀ c ∈ Nat.toDigits 10 n, c.isDigit = true :=
    fun c hc => Nat.isDigit_of_mem_toDigits (by decide) (by decide) hc
  obtain ⟨digits, hwritten⟩ := exists_written hdigits
  refine ⟨digits, ?_, hwritten, ?_⟩
  · rintro rfl
    exact Nat.toDigits_ne_nil hwritten
  · rw [← ofDigitChars_written, ← hwritten, Nat.ofDigitChars_ten_toDigits]

theorem denotes_toString (hsign : type.signed = true ∨ 0 ≤ n) :
    type.Denotes (toString n).toList n := by
  cases n with
  | ofNat natural =>
    obtain ⟨digits, hne, hwritten, hnumber⟩ := exists_written_toDigits natural
    have htext : (toString (Int.ofNat natural)).toList = written digits :=
      Nat.toList_repr.trans hwritten
    rw [htext, ← hnumber]
    exact .bare hne
  | negSucc natural =>
    obtain ⟨digits, hne, hwritten, hnumber⟩ := exists_written_toDigits (natural + 1)
    have htext : (toString (Int.negSucc natural)).toList = '-' :: written digits := by
      rw [← hwritten, ← Nat.toList_repr]
      exact String.toList_append
    rw [htext, Int.negSucc_eq, ← Int.natCast_succ, Nat.succ_eq_add_one, ← hnumber]
    exact .minus (hsign.resolve_right (by omega)) hne

/-- The decimal text of what a word stands for denotes it. -/
theorem denotes_toString_ofWord (type : IntegerType) (word : BitVec type.width) :
    type.Denotes (toString (type.ofWord word)).toList (type.ofWord word) := by
  apply denotes_toString
  rw [ofWord]
  cases type.signed with
  | true => exact .inl rfl
  | false => exact .inr (Int.natCast_nonneg _)

end IntegerType

end LayeredIni.Number
