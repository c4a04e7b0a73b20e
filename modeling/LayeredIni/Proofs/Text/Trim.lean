/-
# Blanks at the ends of a text

`trim` is determined by two facts: a text consists of its trimmed text and of
blanks at either end, and the trimmed text has no blank at its ends. Everything
that documents need to know about trimming is derived here from them.
-/

import LayeredIni.Text.Basic
import Mathlib.Data.List.Basic
import Mathlib.Data.List.DropRight

namespace LayeredIni.Text

/-- A text with no blank at either end. -/
def IsTrimmed (text : List Char) : Prop :=
  (∀ c ∈ text.head?, isBlank c = false) ∧ ∀ c ∈ text.getLast?, isBlank c = false

variable {text left right : List Char}

theorem trimEnd_eq_rdropWhile (text : List Char) : trimEnd text = text.rdropWhile isBlank := rfl

theorem trimStart_eq_self_iff :
    trimStart text = text ↔ ∀ c ∈ text.head?, isBlank c = false := by
  cases text with
  | nil => simp [trimStart]
  | cons c rest =>
    rw [trimStart, List.dropWhile_eq_self_iff]
    simp

theorem trimEnd_eq_self_iff :
    trimEnd text = text ↔ ∀ c ∈ text.getLast?, isBlank c = false := by
  rw [trimEnd_eq_rdropWhile, List.rdropWhile_eq_self_iff]
  cases text with
  | nil => simp
  | cons c rest => simp [List.getLast?_eq_some_getLast]

theorem isBlank_of_mem_head?_trimStart (text : List Char) {c : Char}
    (h : c ∈ (trimStart text).head?) : isBlank c = false := by
  have hsame : trimStart (trimStart text) = trimStart text := List.dropWhile_idempotent ..
  exact trimStart_eq_self_iff.mp hsame c h

theorem trimStart_append_of_blank (hleft : ∀ c ∈ left, isBlank c = true) (text : List Char) :
    trimStart (left ++ text) = trimStart text :=
  List.dropWhile_append_of_pos hleft

/-- Nothing is cut off after a character that is no blank. -/
theorem trimStart_append_cons {c : Char} (hc : isBlank c = false) (text rest : List Char) :
    trimStart (text ++ c :: rest) = trimStart text ++ c :: rest := by
  rw [trimStart, List.dropWhile_append]
  cases hstart : text.dropWhile isBlank with
  | nil => simp [trimStart, hstart, hc]
  | cons d more => simp [trimStart, hstart]

theorem trimEnd_append_of_blank (hright : ∀ c ∈ right, isBlank c = true) (text : List Char) :
    trimEnd (text ++ right) = trimEnd text := by
  have hreverse : ∀ c ∈ right.reverse, isBlank c = true := by simpa using hright
  rw [trimEnd, List.reverse_append, List.dropWhile_append_of_pos hreverse, trimEnd]

/-- Nothing is cut off before a character that is no blank. -/
theorem trimEnd_append_cons {c : Char} (hc : isBlank c = false) (text rest : List Char) :
    trimEnd (text ++ c :: rest) = text ++ c :: trimEnd rest := by
  rw [trimEnd, List.reverse_append, List.reverse_cons, List.append_assoc, List.dropWhile_append]
  cases hrest : rest.reverse.dropWhile isBlank with
  | nil => simp [trimEnd, hrest, hc]
  | cons d more => simp [trimEnd, hrest]

/-- The trimmed text is the text without the blanks at its ends. -/
theorem exists_blanks_trim (text : List Char) :
    ∃ left right, text = left ++ trim text ++ right ∧
      (∀ c ∈ left, isBlank c = true) ∧ ∀ c ∈ right, isBlank c = true := by
  refine ⟨text.takeWhile isBlank, (trimStart text).rtakeWhile isBlank, ?_, ?_, ?_⟩
  · rw [List.append_assoc]
    show text = _ ++ ((trimStart text).rdropWhile isBlank ++ _)
    rw [List.rdropWhile_append_rtakeWhile]
    exact List.takeWhile_append_dropWhile.symm
  · exact fun c hc => List.mem_takeWhile_imp hc
  · exact fun c hc => List.mem_rtakeWhile_imp hc

theorem trim_append_of_blank (hleft : ∀ c ∈ left, isBlank c = true)
    (hright : ∀ c ∈ right, isBlank c = true) (text : List Char) :
    trim (left ++ text ++ right) = trim text := by
  rw [trim, List.append_assoc, trimStart_append_of_blank hleft, trim, trimStart,
    List.dropWhile_append]
  cases hstart : text.dropWhile isBlank with
  | nil => simp [trimStart, hstart, trimEnd, List.dropWhile_eq_nil_iff.mpr hright]
  | cons c rest => simpa [trimStart, hstart] using trimEnd_append_of_blank hright (c :: rest)

theorem trim_append_right (hright : ∀ c ∈ right, isBlank c = true) (text : List Char) :
    trim (text ++ right) = trim text :=
  trim_append_of_blank (fun _ hc => absurd hc List.not_mem_nil) hright text

theorem trim_append_left (hleft : ∀ c ∈ left, isBlank c = true) (text : List Char) :
    trim (left ++ text) = trim text := by
  rw [trim, trimStart_append_of_blank hleft, trim]

/-- Blanks at the end that are already cut off make no difference. -/
theorem trim_trimEnd (text : List Char) : trim (trimEnd text) = trim text := by
  have hblank : ∀ c ∈ text.rtakeWhile isBlank, isBlank c = true :=
    fun c hc => List.mem_rtakeWhile_imp hc
  calc
    trim (trimEnd text) = trim (trimEnd text ++ text.rtakeWhile isBlank) :=
      (trim_append_right hblank _).symm
    _ = trim text := by
      rw [trimEnd_eq_rdropWhile, List.rdropWhile_append_rtakeWhile]

theorem isTrimmed_trim (text : List Char) : IsTrimmed (trim text) := by
  refine ⟨?_, ?_⟩
  · intro c hc
    have hprefix : trim text <+: trimStart text := List.rdropWhile_prefix ..
    obtain ⟨rest, hrest⟩ := hprefix
    apply isBlank_of_mem_head?_trimStart text
    rw [← hrest]
    cases htrim : trim text with
    | nil => simp [htrim] at hc
    | cons d more => simpa [htrim] using hc
  · have hsame : trimEnd (trim text) = trim text := List.rdropWhile_idempotent ..
    exact trimEnd_eq_self_iff.mp hsame

theorem trim_eq_self_iff : trim text = text ↔ IsTrimmed text := by
  refine ⟨fun h => ?_, fun h => ?_⟩
  · rw [← h]
    exact isTrimmed_trim text
  · rw [trim, trimStart_eq_self_iff.mpr h.1, trimEnd_eq_self_iff.mpr h.2]

theorem trimmed_eq_self_iff {text : String} : trimmed text = text ↔ IsTrimmed text.toList := by
  rw [trimmed, ← String.toList_inj, String.toList_ofList, trim_eq_self_iff]

@[simp]
theorem trim_trim (text : List Char) : trim (trim text) = trim text :=
  trim_eq_self_iff.mpr (isTrimmed_trim text)

theorem trimmed_trimmed (text : String) : trimmed (trimmed text) = trimmed text := by
  simp [trimmed]

theorem mem_of_mem_trim {c : Char} (h : c ∈ trim text) : c ∈ text := by
  obtain ⟨left, right, heq, -, -⟩ := exists_blanks_trim text
  rw [heq]
  simp [h]

theorem trim_cons {c : Char} (hc : isBlank c = false) (rest : List Char) :
    trim (c :: rest) = c :: trimEnd rest := by
  have hstart : trimStart (c :: rest) = c :: rest := by
    rw [trimStart_eq_self_iff]
    simpa using hc
  rw [trim, hstart]
  exact trimEnd_append_cons hc [] rest

theorem isTrimmed_of_forall (h : ∀ c ∈ text, isBlank c = false) : IsTrimmed text :=
  ⟨fun c hc => h c (List.mem_of_mem_head? hc), fun c hc => h c (List.mem_of_mem_getLast? hc)⟩

theorem isTrimmed_cons_concat {first last : Char} (hfirst : isBlank first = false)
    (hlast : isBlank last = false) (text : List Char) :
    IsTrimmed (first :: (text ++ [last])) := by
  refine ⟨?_, ?_⟩
  · simpa using hfirst
  · rw [← List.cons_append, List.getLast?_concat]
    simpa using hlast

/-- What stands between two texts with no blank at their ends does not matter. -/
theorem IsTrimmed.between (hleft : IsTrimmed left) (hright : IsTrimmed right) (hne : left ≠ [])
    (hne' : right ≠ []) (middle : List Char) : IsTrimmed (left ++ (middle ++ right)) := by
  refine ⟨?_, ?_⟩
  · rw [List.head?_append_of_ne_nil _ hne]
    exact hleft.1
  · rw [List.getLast?_append_of_ne_nil _ (by simp [hne']), List.getLast?_append_of_ne_nil _ hne']
    exact hright.2

end LayeredIni.Text
