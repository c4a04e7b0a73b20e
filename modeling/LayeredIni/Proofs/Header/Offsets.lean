/-
# Where faults of headers stand

The message of a header that cannot be read gives an offset. It counts the
characters of the condition from the first parenthesis on, if there is one, and
of the whole header otherwise, and what the message names stands there. One
fault is an exception. A closing parenthesis that nothing opened is placed by the
bytes in front of it, and these are as many as the characters only as long as
every one of them is an ASCII character.
-/

import LayeredIni.Proofs.Condition.Offsets
import LayeredIni.Proofs.Header.Grammar

namespace LayeredIni.Header

open LayeredIni.Text

theorem byteLength_cons (c : Char) (text : List Char) :
    byteLength (c :: text) = c.utf8Size + byteLength text := by
  rw [byteLength, ← List.singleton_append, String.ofList_append, String.utf8ByteSize_append]
  simp [byteLength]

theorem length_le_byteLength (text : List Char) : text.length ≤ byteLength text := by
  induction text with
  | nil => exact Nat.zero_le _
  | cons c text ih =>
    have hc := c.utf8Size_pos
    rw [byteLength_cons, List.length_cons]
    omega

theorem byteLength_eq_length_iff {text : List Char} :
    byteLength text = text.length ↔ ∀ c ∈ text, c.toNat < 0x80 := by
  induction text with
  | nil => simp [byteLength]
  | cons c text ih =>
    have hc := c.utf8Size_pos
    have htext := length_le_byteLength text
    have hascii : c.utf8Size = 1 ↔ c.toNat < 0x80 := by
      rw [Char.utf8Size_eq_one_iff, UInt32.le_iff_toNat_le]
      exact Nat.lt_succ_iff.symm
    rw [byteLength_cons, List.length_cons, List.forall_mem_cons, ← ih, ← hascii]
    omega

/-- The offset in the message of a fault. -/
def Fault.offset : Fault → Nat
  | missingName => 0
  | unopenedParenthesis bytes => bytes
  | missingChild => 0
  | condition error => error.offset

/-- What the message of a fault says about that place. -/
def Fault.wording : Fault → String
  | missingName => "missing section name before condition"
  | unopenedParenthesis _ => "unbalanced ')'"
  | missingChild => "missing section name before ':'"
  | condition error => error.fault.message

theorem Fault.message_eq (fault : Fault) :
    fault.message = "at offset " ++ toString fault.offset ++ ": " ++ fault.wording := by
  cases fault with
  | missingName => decide
  | unopenedParenthesis bytes => simp [message, offset, wording, String.append_assoc]
  | missingChild => decide
  | condition error => rfl

/-- The fault is about something that the header has, and not about what it lacks. -/
def Fault.NamesText : Fault → Prop
  | missingName => False
  | unopenedParenthesis _ => True
  | missingChild => False
  | condition error => error.fault.NamesText

/-- The text starts with what the fault names. -/
def Fault.Starts : Fault → List Char → Prop
  | unopenedParenthesis _, text => ∃ rest, text = ')' :: rest
  | condition error, text => error.fault.Starts text
  | _, _ => False

/-- What the offset counts in: the condition, if there is one, and otherwise the
whole header. -/
def counted (text : List Char) : List Char :=
  if '(' ∈ text then text.dropWhile (· != '(') else text

/-- The text has a closing parenthesis without any opening one, and the first
one stands behind `before`. -/
structure StrayBehind (text before : List Char) : Prop where
  /-- Nothing opens. -/
  no_opening : '(' ∉ text
  /-- Nothing closes earlier. -/
  first : ')' ∉ before
  /-- The parenthesis stands there. -/
  eq_append : ∃ after, text = before ++ ')' :: after

/-- The offset of a fault counts the characters before what the fault names. -/
structure Fault.CountsCharacters (fault : Fault) (text : List Char) : Prop where
  /-- There are that many characters. -/
  within : fault.offset ≤ (counted text).length
  /-- What the fault names stands behind that many characters, and starts with
  one that is no blank. -/
  stands : fault.NamesText → Condition.StandsAt fault.Starts (counted text) fault.offset
  /-- That many characters stand before a parenthesis that nothing opened. -/
  stray : ∀ before, StrayBehind text before → fault.offset = before.length

theorem counted_of_opening {before after : List Char} (h : '(' ∉ before) :
    counted (before ++ '(' :: after) = '(' :: after := by
  rw [counted, if_pos (by simp), (takeWhile_dropWhile_of_not_mem h _ (by simp)).2]

theorem StrayBehind.ofChars_eq {text before : List Char} (h : StrayBehind text before) :
    ofChars text = .error (.unopenedParenthesis (byteLength before)) := by
  obtain ⟨hopening, hfirst, after, rfl⟩ := h
  exact ofChars_of_closing hopening hfirst

theorem StrayBehind.unique {text before before' : List Char} (h : StrayBehind text before)
    (h' : StrayBehind text before') : before = before' := by
  obtain ⟨-, hfirst, after, rfl⟩ := h
  obtain ⟨-, hfirst', after', heq⟩ := h'
  rw [← (takeWhile_dropWhile_of_not_mem hfirst (')' :: after) (by simp)).1, heq,
    (takeWhile_dropWhile_of_not_mem hfirst' (')' :: after') (by simp)).1]

/-- A parenthesis that nothing opened stands behind the characters, not the bytes. -/
theorem StrayBehind.standsAt {text before : List Char} (h : StrayBehind text before) (bytes : Nat) :
    Condition.StandsAt (Fault.unopenedParenthesis bytes).Starts (counted text) before.length := by
  obtain ⟨hopening, -, after, rfl⟩ := h
  rw [counted, if_neg hopening]
  exact ⟨')', after, by simp, by decide, after, rfl⟩

/-- Without such a parenthesis the offset counts characters. -/
theorem countsCharacters_of_no_stray {text : List Char} {fault : Fault}
    (h : ofChars text = .error fault) (hstray : ∀ before, ¬ StrayBehind text before) :
    fault.CountsCharacters text := by
  have hnone : ∀ before, StrayBehind text before → fault.offset = before.length :=
    fun before hbefore => absurd hbefore (hstray before)
  cases ofChars_eq_iff.mp h with
  | missingName => exact ⟨Nat.zero_le _, False.elim, hnone⟩
  | missingChild => exact ⟨Nat.zero_le _, False.elim, hnone⟩
  | badCondition hbefore _ hcondition =>
    obtain ⟨hwithin, hstands⟩ := Condition.standsAt_of_parseChars_eq_error hcondition
    rw [← counted_of_opening hbefore] at hwithin hstands
    exact ⟨hwithin, hstands, hnone⟩
  | unopened hopening hfirst => exact absurd ⟨hopening, hfirst, _, rfl⟩ (hstray _)

/-- With such a parenthesis it does if the bytes before it are as many as the characters. -/
theorem StrayBehind.countsCharacters_iff {text before : List Char} (h : StrayBehind text before) :
    (Fault.unopenedParenthesis (byteLength before)).CountsCharacters text ↔
      byteLength before = before.length := by
  refine ⟨fun hcounts => hcounts.stray before h, fun hlength => ?_⟩
  have hstands := h.standsAt (byteLength before)
  refine ⟨?_, fun _ => ?_, fun before' h' => ?_⟩
  · show byteLength before ≤ _
    rw [hlength]
    exact Nat.le_of_lt hstands.offset_lt
  · show Condition.StandsAt _ _ (byteLength before)
    rwa [hlength]
  · rw [← h.unique h']
    exact hlength

/-- Offsets count characters, except behind a parenthesis that nothing opened.
The message of an error gives the offset of its fault. For a closing parenthesis
without any opening one this is the number of bytes before it. So it counts
characters if those before such a parenthesis are ASCII characters, and only then. -/
theorem offset_counts_characters_iff {raw : String} {error : Error}
    (h : parse raw = .error error) :
    error.message = "invalid section header '" ++ raw ++ "': " ++
        ("at offset " ++ toString error.fault.offset ++ ": " ++ error.fault.wording) ∧
      (∀ before, StrayBehind raw.toList before →
        error.fault = .unopenedParenthesis (byteLength before)) ∧
      (error.fault.CountsCharacters raw.toList ↔
        ∀ before, StrayBehind raw.toList before → ∀ c ∈ before, c.toNat < 0x80) := by
  obtain ⟨rfl, hfault⟩ := parse_eq_error_iff.mp h
  have hstray : ∀ before, StrayBehind error.raw.toList before →
      error.fault = .unopenedParenthesis (byteLength before) := by
    intro before hbefore
    rw [hbefore.ofChars_eq] at hfault
    exact (Except.error.inj hfault).symm
  refine ⟨?_, hstray, ?_⟩
  · exact congrArg ("invalid section header '" ++ error.raw ++ "': " ++ ·) error.fault.message_eq
  · by_cases hexists : ∃ before, StrayBehind error.raw.toList before
    · obtain ⟨before, hbefore⟩ := hexists
      rw [hstray before hbefore, hbefore.countsCharacters_iff, byteLength_eq_length_iff]
      constructor
      · intro hascii before' hbefore'
        exact hbefore.unique hbefore' ▸ hascii
      · exact fun hascii => hascii before hbefore
    · have hnone : ∀ before, ¬ StrayBehind error.raw.toList before := not_exists.mp hexists
      exact iff_of_true (countsCharacters_of_no_stray hfault hnone)
        fun before hbefore => absurd hbefore (hnone before)

/-- The operator is the fourth character of the condition, whatever stands before it. -/
theorem offset_counts_characters_in_condition :
    (Fault.condition ⟨3, .unknownOperator '='⟩).CountsCharacters "é (ü = b)".toList := by
  have h : parse "é (ü = b)" = .error ⟨"é (ü = b)", .condition ⟨3, .unknownOperator '='⟩⟩ := by
    decide +kernel
  refine (offset_counts_characters_iff h).2.2.mpr fun before hbefore => ?_
  exact absurd (by decide) hbefore.no_opening

/-- One character of two bytes stands before the parenthesis. -/
theorem offset_not_counting_characters :
    ¬ ∀ raw error, parse raw = .error error → error.fault.CountsCharacters raw.toList := by
  intro hcounts
  have h : parse "é)" = .error ⟨"é)", .unopenedParenthesis 2⟩ := by decide +kernel
  have hstray : StrayBehind "é)".toList ['é'] := ⟨by decide, by decide, [], rfl⟩
  have hoffset : 2 = 1 := (hcounts _ _ h).stray ['é'] hstray
  omega

end LayeredIni.Header
