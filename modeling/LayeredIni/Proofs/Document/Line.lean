/-
# What lines can say, and how to write it

A line that is no remark is a header or an entry. This module says which
headers, keys and values lines can give at all, and how each of them can be
written: a header in brackets, and an entry with its value in double quotes, in
single quotes or as it stands. A line that is written so reads back as what it
was written for.
-/

import LayeredIni.Document.Line
import LayeredIni.Proofs.Text.Split
import LayeredIni.Proofs.Text.Trim
import Mathlib.Tactic.MkIffOfInductiveProp

namespace LayeredIni.Document

open LayeredIni.Text

/-- A text that is a comment after any blanks. -/
def StartsComment (text : List Char) : Prop :=
  ∃ blanks mark rest, text = blanks ++ mark :: rest ∧
    (∀ c ∈ blanks, isBlank c = true) ∧ (mark = ';' ∨ mark = '#')

/-- The headers that a line can give. A closing bracket in a header cannot be
mistaken for the one that ends it. -/
structure IsHeader (raw : String) : Prop where
  not_blank : trimmed raw ≠ ""
  no_lineFeed : '\n' ∉ raw.toList
  no_earlier_end : ∀ front back, raw.toList = front ++ ']' :: back → ¬ StartsComment back

/-- The keys that a line can give. -/
@[mk_iff]
structure IsKey (key : String) : Prop where
  ne_empty : key ≠ ""
  trimmed_eq : trimmed key = key
  no_equals : '=' ∉ key.toList
  no_lineFeed : '\n' ∉ key.toList
  starts_entry : ∀ c ∈ key.toList.head?, c ≠ '[' ∧ c ≠ ';' ∧ c ≠ '#'

instance (key : String) : Decidable (IsKey key) :=
  -- The first character is looked at, not every character that there is.
  have : Decidable (∀ c ∈ key.toList.head?, c ≠ '[' ∧ c ≠ ';' ∧ c ≠ '#') :=
    Option.decidableForallMem key.toList.head?
  decidable_of_iff' _ (isKey_iff key)

/-- The values that a line can give. -/
def IsValue (value : String) : Prop :=
  '\n' ∉ value.toList

instance (value : String) : Decidable (IsValue value) :=
  inferInstanceAs (Decidable ('\n' ∉ value.toList))

/-- The parts of a line are such as lines can give. -/
def Line.WellFormed : Line → Prop
  | remark => True
  | header raw => IsHeader raw
  | entry key value => IsKey key ∧ IsValue value

theorem startsComment_iff {text : List Char} :
    StartsComment text ↔
      ∃ mark rest, trimStart text = mark :: rest ∧ (mark = ';' ∨ mark = '#') := by
  refine ⟨?_, ?_⟩
  · rintro ⟨blanks, mark, rest, rfl, hblanks, hmark⟩
    have hsolid : isBlank mark = false := by
      rcases hmark with rfl | rfl <;> decide
    refine ⟨mark, rest, ?_, hmark⟩
    rw [trimStart_append_cons hsolid, trimStart, List.dropWhile_eq_nil_iff.mpr hblanks]
    rfl
  · rintro ⟨mark, rest, hstart, hmark⟩
    refine ⟨text.takeWhile isBlank, mark, rest, ?_, fun c hc => List.mem_takeWhile_imp hc, hmark⟩
    rw [← hstart]
    exact List.takeWhile_append_dropWhile.symm

theorem isRemark_iff {text : List Char} :
    isRemark text = true ↔ (∀ c ∈ text, isBlank c = true) ∨ StartsComment text := by
  rw [startsComment_iff, isRemark, ← List.dropWhile_eq_nil_iff]
  show _ ↔ trimStart text = [] ∨ _
  cases trimStart text with
  | nil => simp
  | cons c rest => simp

/-- What follows a closing bracket does not make a comment of what stands before it. -/
theorem startsComment_append_bracket {front back : List Char} :
    StartsComment (front ++ ']' :: back) ↔ StartsComment front := by
  rw [startsComment_iff, startsComment_iff, trimStart_append_cons (by decide)]
  cases trimStart front with
  | nil => simp
  | cons c rest => simp

/-- A header ends at the first closing bracket that only a remark follows. -/
theorem headerText_eq_some_iff {text raw : List Char} :
    headerText text = some raw ↔
      (∃ after, text = raw ++ ']' :: after ∧ isRemark after = true) ∧
        ∀ front back, raw = front ++ ']' :: back → ¬ StartsComment back := by
  induction text generalizing raw with
  | nil => simp [headerText]
  | cons c rest ih =>
    unfold headerText
    by_cases hend : c = ']' ∧ isRemark rest = true
    · rw [if_pos hend]
      obtain ⟨rfl, hremark⟩ := hend
      constructor
      · intro h
        cases h
        exact ⟨⟨rest, rfl, hremark⟩, by simp⟩
      · rintro ⟨⟨after, heq, -⟩, hearlier⟩
        cases raw with
        | nil => rfl
        | cons d more =>
          -- The header would go on after a bracket that ends it.
          cases heq
          rcases isRemark_iff.mp hremark with hblank | hcomment
          · exact absurd (hblank ']' (by simp)) (by decide)
          · exact absurd (startsComment_append_bracket.mp hcomment) (hearlier [] more rfl)
    · rw [if_neg hend, Option.map_eq_some_iff]
      constructor
      · rintro ⟨more, hmore, rfl⟩
        obtain ⟨⟨after, rfl, hremark⟩, hearlier⟩ := ih.mp hmore
        refine ⟨⟨after, rfl, hremark⟩, ?_⟩
        intro front back heq hcomment
        cases front with
        | nil =>
          cases heq
          exact hend ⟨rfl, isRemark_iff.mpr (.inr (startsComment_append_bracket.mpr hcomment))⟩
        | cons d front =>
          cases heq
          exact hearlier front back rfl hcomment
      · rintro ⟨⟨after, heq, hremark⟩, hearlier⟩
        cases raw with
        | nil =>
          cases heq
          exact absurd ⟨rfl, hremark⟩ hend
        | cons d more =>
          cases heq
          refine ⟨more, ih.mpr ⟨⟨after, rfl, hremark⟩, ?_⟩, rfl⟩
          rintro front back rfl
          exact hearlier (c :: front) back rfl

theorem mem_of_readDoubleQuoted {text value after : List Char} {c : Char}
    (h : readDoubleQuoted text = some (value, after)) (hc : c ∈ value) : c ∈ text := by
  fun_induction readDoubleQuoted text generalizing value after with
  | case1 => cases h
  | case2 rest => cases h; cases hc
  | case3 d rest ih =>
    rcases Option.map_eq_some_iff.mp h with ⟨⟨inner, left⟩, hread, heq⟩
    cases heq
    split at hc
    · rcases List.mem_cons.mp hc with rfl | hc
      · simp
      · simp [ih hread hc]
    · rcases List.mem_cons.mp hc with rfl | hc
      · simp
      · rcases List.mem_cons.mp hc with rfl | hc
        · simp
        · simp [ih hread hc]
  | case4 d rest _ _ ih =>
    rcases Option.map_eq_some_iff.mp h with ⟨⟨inner, left⟩, hread, heq⟩
    cases heq
    rcases List.mem_cons.mp hc with rfl | hc
    · simp
    · simp [ih hread hc]

theorem eq_some_of_closeQuoted {read : Option (List Char × List Char)} {value : List Char}
    (h : closeQuoted read = .ok value) : ∃ after, read = some (value, after) := by
  rcases read with _ | ⟨inner, after⟩
  · cases h
  · unfold closeQuoted at h
    dsimp only at h
    split at h
    · cases h
      exact ⟨after, rfl⟩
    · cases h

theorem mem_of_readValue {text value : List Char} {c : Char}
    (h : readValue text = .ok value) (hc : c ∈ value) : c ∈ text := by
  unfold readValue at h
  split at h
  · rcases eq_some_of_closeQuoted h with ⟨after, hread⟩
    exact List.mem_cons_of_mem _ (mem_of_readDoubleQuoted hread hc)
  · rcases eq_some_of_closeQuoted h with ⟨after, hread⟩
    rcases cutAtFirst_eq_some_iff.mp hread with ⟨mark, rfl, -, -⟩
    simp [hc]
  · cases h
    exact (List.takeWhile_prefix _).subset hc

theorem readHeader_eq_ok_iff {text : List Char} {line : Line} :
    readHeader text = .ok line ↔
      ∃ raw, headerText text = some raw ∧ trim raw ≠ [] ∧
        line = .header (String.ofList raw) := by
  refine ⟨fun h => ?_, ?_⟩
  · unfold readHeader at h
    split at h
    · cases h
    · next raw hraw =>
      split at h
      · cases h
      · next hblank =>
        cases h
        exact ⟨raw, hraw, by simpa using hblank, rfl⟩
  · intro h
    obtain ⟨raw, hraw, hblank, rfl⟩ := h
    rw [readHeader, hraw]
    simp [hblank]

theorem readEntry_eq_ok_iff {text : List Char} {line : Line} :
    readEntry text = .ok line ↔
      ∃ before after value, cutAtFirst (· == '=') text = some (before, after) ∧
        trim before ≠ [] ∧ readValue (trim after) = .ok value ∧
        line = .entry (String.ofList (trim before)) (String.ofList value) := by
  refine ⟨fun h => ?_, ?_⟩
  · unfold readEntry at h
    split at h
    · cases h
    · next before after hcut =>
      dsimp only at h
      split at h
      · cases h
      · next hkey =>
        split at h
        · cases h
        · next value hvalue =>
          cases h
          exact ⟨before, after, value, hcut, by simpa using hkey, hvalue, rfl⟩
  · intro h
    obtain ⟨before, after, value, hcut, hkey, hvalue, rfl⟩ := h
    rw [readEntry, hcut]
    simp [hkey, hvalue]

theorem isHeader_of_readHeader {text : List Char} {line : Line} (hlf : '\n' ∉ text)
    (h : readHeader text = .ok line) : line.WellFormed := by
  obtain ⟨raw, hraw, hblank, rfl⟩ := readHeader_eq_ok_iff.mp h
  obtain ⟨⟨after, rfl, -⟩, hearlier⟩ := headerText_eq_some_iff.mp hraw
  refine ⟨?_, ?_, ?_⟩
  · simpa [trimmed] using hblank
  · rw [String.toList_ofList]
    exact fun hmem => hlf (List.mem_append_left _ hmem)
  · rw [String.toList_ofList]
    exact hearlier

/-- What stands before the first equals sign is a key, in a line that is neither
a remark nor a header. -/
theorem isKey_trim {before after : List Char} (hlf : '\n' ∉ before) (hequals : '=' ∉ before)
    (hne : trim before ≠ []) (htrimmed : IsTrimmed (before ++ '=' :: after))
    (hremark : isRemark (before ++ '=' :: after) = false)
    (hheader : ∀ rest, before ++ '=' :: after ≠ '[' :: rest) :
    IsKey (String.ofList (trim before)) := by
  cases before with
  | nil => exact absurd rfl hne
  | cons c more =>
    have hc : isBlank c = false := htrimmed.1 c rfl
    refine ⟨?_, ?_, ?_, ?_, ?_⟩
    · simpa using hne
    · rw [trimmed_eq_self_iff, String.toList_ofList]
      exact isTrimmed_trim _
    · rw [String.toList_ofList]
      exact fun hmem => hequals (mem_of_mem_trim hmem)
    · rw [String.toList_ofList]
      exact fun hmem => hlf (mem_of_mem_trim hmem)
    · rw [String.toList_ofList, trim_cons hc]
      intro first hfirst
      cases hfirst
      refine ⟨?_, ?_⟩
      · intro hbracket
        apply hheader (more ++ '=' :: after)
        rw [hbracket]
        rfl
      · rw [isRemark, trimStart_eq_self_iff.mpr htrimmed.1] at hremark
        simpa using hremark

/-- What an entry gives is a key and a value. -/
theorem wellFormed_of_readEntry {text : List Char} {line : Line} (hlf : '\n' ∉ text)
    (htrimmed : IsTrimmed text) (hremark : isRemark text = false)
    (hheader : ∀ rest, text ≠ '[' :: rest) (h : readEntry text = .ok line) :
    line.WellFormed := by
  obtain ⟨before, after, value, hcut, hne, hvalue, rfl⟩ := readEntry_eq_ok_iff.mp h
  obtain ⟨mark, rfl, hmark, hbefore⟩ := cutAtFirst_eq_some_iff.mp hcut
  obtain rfl : mark = '=' := by simpa using hmark
  have hequals : '=' ∉ before := by
    intro hmem
    have hother := hbefore '=' hmem
    cases hother
  have hlfBefore : '\n' ∉ before := fun hmem => hlf (List.mem_append_left _ hmem)
  have hlfAfter : '\n' ∉ after := fun hmem =>
    hlf (List.mem_append_right _ (List.mem_cons_of_mem _ hmem))
  refine ⟨isKey_trim hlfBefore hequals hne htrimmed hremark hheader, ?_⟩
  intro hmem
  rw [String.toList_ofList] at hmem
  exact hlfAfter (mem_of_mem_trim (mem_of_readValue hvalue hmem))

/-- Lines give headers, keys and values of the stated kinds only. -/
theorem wellFormed_of_read {text : List Char} {line : Line} (hlf : '\n' ∉ text)
    (h : Line.read text = .ok line) : line.WellFormed := by
  have hlf : '\n' ∉ trim text := fun hmem => hlf (mem_of_mem_trim hmem)
  unfold Line.read Line.ofTrimmed at h
  split at h
  · cases h
    trivial
  · next hremark =>
    split at h
    · next rest htext =>
      rw [htext] at hlf
      exact isHeader_of_readHeader (fun hmem => hlf (List.mem_cons_of_mem _ hmem)) h
    · next hheader =>
      exact wellFormed_of_readEntry hlf (isTrimmed_trim text) (by simpa using hremark) hheader h

/-- A value as it stands between double quotes. -/
def escaped (value : List Char) : List Char :=
  value.flatMap fun c => if c = '"' ∨ c = '\\' then ['\\', c] else [c]

/-- A value in double quotes. -/
def doubleQuoted (value : String) : List Char :=
  '"' :: (escaped value.toList ++ ['"'])

/-- The ways to write a value. -/
inductive Spells (value : String) : List Char → Prop
  | double : Spells value (doubleQuoted value)
  | single : '\'' ∉ value.toList → Spells value ('\'' :: (value.toList ++ ['\'']))
  | plain : trimmed value = value → ';' ∉ value.toList →
      (∀ c ∈ value.toList.head?, c ≠ '"' ∧ c ≠ '\'') → Spells value value.toList

/-- The line of a header. -/
def headerLine (raw : String) : List Char :=
  '[' :: (raw.toList ++ [']'])

/-- The line of an entry whose value is written in a given way. -/
def entryLine (key : String) (spelling : List Char) : List Char :=
  key.toList ++ [' ', '=', ' '] ++ spelling

theorem readDoubleQuoted_escaped (value rest : List Char) :
    readDoubleQuoted (escaped value ++ '"' :: rest) = some (value, rest) := by
  induction value with
  | nil => rfl
  | cons c more ih =>
    by_cases hc : c = '"' ∨ c = '\\'
    · have hstep : escaped (c :: more) ++ '"' :: rest =
          '\\' :: c :: (escaped more ++ '"' :: rest) := by
        simp [escaped, hc]
      rw [hstep, readDoubleQuoted, ih]
      simp [hc]
    · have hstep : escaped (c :: more) ++ '"' :: rest = c :: (escaped more ++ '"' :: rest) := by
        simp [escaped, hc]
      rw [hstep, readDoubleQuoted, ih]
      · rfl
      · exact fun heq => hc (.inl heq)
      · exact fun d last heq => absurd (.inr heq) hc

theorem Spells.read {value : String} {spelling : List Char} (h : Spells value spelling) :
    readValue spelling = .ok value.toList := by
  cases h with
  | double =>
    show closeQuoted (readDoubleQuoted (escaped value.toList ++ '"' :: [])) = _
    rw [readDoubleQuoted_escaped]
    rfl
  | single hquote =>
    have hbefore : ∀ c ∈ value.toList, (c == '\'') = false := by
      intro c hc
      apply beq_false_of_ne
      intro heq
      subst heq
      exact hquote hc
    show closeQuoted (cutAtFirst (· == '\'') (value.toList ++ '\'' :: [])) = _
    rw [cutAtFirst_append_cons hbefore rfl]
    rfl
  | plain _ hsemicolon hquote =>
    have hall : value.toList.takeWhile (· != ';') = value.toList := by
      rw [List.takeWhile_eq_self_iff]
      intro c hc
      apply bne_iff_ne.mpr
      intro heq
      subst heq
      exact hsemicolon hc
    unfold readValue
    split
    · next heq => exact absurd rfl (hquote '"' (by rw [heq]; rfl)).1
    · next heq => exact absurd rfl (hquote '\'' (by rw [heq]; rfl)).2
    · rw [hall]

theorem Spells.isTrimmed {value : String} {spelling : List Char} (h : Spells value spelling) :
    IsTrimmed spelling := by
  cases h with
  | double => exact isTrimmed_cons_concat (by decide) (by decide) _
  | single => exact isTrimmed_cons_concat (by decide) (by decide) _
  | plain htrimmed => exact trimmed_eq_self_iff.mp htrimmed

theorem Spells.no_lineFeed {value : String} {spelling : List Char} (h : Spells value spelling)
    (hvalue : IsValue value) : '\n' ∉ spelling := by
  have hescaped : '\n' ∉ escaped value.toList := by
    intro hmem
    rcases List.mem_flatMap.mp hmem with ⟨c, hc, hin⟩
    split at hin
    · next hescape =>
      rcases hescape with rfl | rfl <;> simp at hin
    · rw [List.mem_singleton] at hin
      exact hvalue (hin ▸ hc)
  cases h with
  | double => simpa [doubleQuoted] using hescaped
  | single => simpa [IsValue] using hvalue
  | plain => exact hvalue

/-- A trimmed line that starts with a bracket is a header. -/
theorem ofTrimmed_bracket (rest : List Char) :
    Line.ofTrimmed ('[' :: rest) = readHeader rest := by
  have hstart : trimStart ('[' :: rest) = '[' :: rest := rfl
  have hremark : isRemark ('[' :: rest) = false := by
    rw [isRemark, hstart]
    rfl
  unfold Line.ofTrimmed
  rw [hremark]
  rfl

/-- A trimmed line that starts neither as a header nor as a comment is an entry. -/
theorem ofTrimmed_entry {c : Char} (hblank : isBlank c = false)
    (hstart : c ≠ '[' ∧ c ≠ ';' ∧ c ≠ '#') (rest : List Char) :
    Line.ofTrimmed (c :: rest) = readEntry (c :: rest) := by
  have hremark : isRemark (c :: rest) = false := by
    have htrim : trimStart (c :: rest) = c :: rest := by
      apply trimStart_eq_self_iff.mpr
      simpa using hblank
    rw [isRemark, htrim]
    simpa using hstart.2
  unfold Line.ofTrimmed
  rw [hremark]
  split
  · next heq => cases heq
  · split
    · next heq =>
      cases heq
      exact absurd rfl hstart.1
    · rfl

theorem read_headerLine {raw : String} (h : IsHeader raw) :
    Line.read (headerLine raw) = .ok (.header raw) := by
  have htrim : trim (headerLine raw) = headerLine raw :=
    trim_eq_self_iff.mpr (isTrimmed_cons_concat (by decide) (by decide) _)
  have htext : headerText (raw.toList ++ [']']) = some raw.toList :=
    headerText_eq_some_iff.mpr ⟨⟨[], rfl, rfl⟩, h.no_earlier_end⟩
  have hblank : trim raw.toList ≠ [] := by
    intro hempty
    apply h.not_blank
    rw [trimmed, hempty]
  rw [Line.read, htrim, headerLine, ofTrimmed_bracket]
  exact readHeader_eq_ok_iff.mpr ⟨raw.toList, htext, hblank, by rw [String.ofList_toList]⟩

/-- A key starts with a character that makes its line an entry. -/
theorem IsKey.exists_cons {key : String} (h : IsKey key) :
    ∃ c more, key.toList = c :: more ∧ isBlank c = false ∧ c ≠ '[' ∧ c ≠ ';' ∧ c ≠ '#' := by
  have hne : key.toList ≠ [] := by simpa using h.ne_empty
  obtain ⟨c, more, hchars⟩ := List.exists_cons_of_ne_nil hne
  have hfirst : c ∈ key.toList.head? := by
    rw [hchars]
    rfl
  exact ⟨c, more, hchars, (trimmed_eq_self_iff.mp h.trimmed_eq).1 c hfirst,
    h.starts_entry c hfirst⟩

/-- A key, a blank and an equals sign are read as such before any value. -/
theorem readEntry_of_isKey {key value : String} {spelling after : List Char} (hkey : IsKey key)
    (h : Spells value spelling) (hafter : trim after = spelling) :
    readEntry (key.toList ++ [' '] ++ '=' :: after) = .ok (.entry key value) := by
  have hbefore : ∀ c ∈ key.toList ++ [' '], (c == '=') = false := by
    intro c hc
    apply beq_false_of_ne
    intro heq
    subst heq
    rcases List.mem_append.mp hc with hc | hc
    · exact hkey.no_equals hc
    · simp at hc
  have hblank : ∀ c ∈ [' '], isBlank c = true := by simp; decide
  have hname : trim (key.toList ++ [' ']) = key.toList := by
    rw [trim_append_right hblank]
    exact trim_eq_self_iff.mpr (trimmed_eq_self_iff.mp hkey.trimmed_eq)
  apply readEntry_eq_ok_iff.mpr
  refine ⟨_, after, value.toList, cutAtFirst_append_cons hbefore rfl after, ?_, ?_, ?_⟩
  · rw [hname]
    simpa using hkey.ne_empty
  · rw [hafter]
    exact h.read
  · rw [hname, String.ofList_toList, String.ofList_toList]

/-- An entry line gives its key and value, however the value is written. -/
theorem read_entryLine {key value : String} {spelling : List Char} (hkey : IsKey key)
    (h : Spells value spelling) :
    Line.read (entryLine key spelling) = .ok (.entry key value) := by
  obtain ⟨c, more, hchars, hsolid, hstart⟩ := hkey.exists_cons
  -- The blank before the value may be cut off, the equals sign may not.
  have htrim : trim (entryLine key spelling) =
      key.toList ++ [' '] ++ '=' :: trimEnd (' ' :: spelling) := by
    have hcons : entryLine key spelling = c :: (more ++ [' '] ++ '=' :: ' ' :: spelling) := by
      simp [entryLine, hchars]
    rw [hcons, trim_cons hsolid, trimEnd_append_cons (by decide), hchars]
    rfl
  have hvalue : trim (trimEnd (' ' :: spelling)) = spelling := by
    have hblank : ∀ c ∈ [' '], isBlank c = true := by simp; decide
    rw [trim_trimEnd]
    exact (trim_append_left hblank spelling).trans (trim_eq_self_iff.mpr h.isTrimmed)
  have hentry : Line.ofTrimmed (key.toList ++ [' '] ++ '=' :: trimEnd (' ' :: spelling)) =
      readEntry (key.toList ++ [' '] ++ '=' :: trimEnd (' ' :: spelling)) := by
    rw [hchars]
    exact ofTrimmed_entry hsolid hstart _
  rw [Line.read, htrim, hentry]
  exact readEntry_of_isKey hkey h hvalue

theorem no_lineFeed_headerLine {raw : String} (h : IsHeader raw) : '\n' ∉ headerLine raw := by
  simp [headerLine, h.no_lineFeed]

theorem no_lineFeed_entryLine {key value : String} {spelling : List Char} (hkey : IsKey key)
    (hvalue : IsValue value) (h : Spells value spelling) : '\n' ∉ entryLine key spelling := by
  simp [entryLine, hkey.no_lineFeed, h.no_lineFeed hvalue]

end LayeredIni.Document
