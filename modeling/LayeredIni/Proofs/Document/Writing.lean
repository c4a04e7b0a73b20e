/-
# Writing sections and reading them back

A list of sections is written with one line for each header, each entry of a
section and each entry that stands for itself, in order. Read again, such a
text gives these sections: the readers and the writers of lines agree line by
line, and every line of a well-formed list goes to the section it was written
for. Together with the invariant of drafts this describes exactly which lists
of sections documents have.
-/

import LayeredIni.Proofs.Document.Section

namespace LayeredIni.Document

open LayeredIni.Text

/-- The ways to write a line that is no remark. -/
inductive Line.WrittenAs : Line → List Char → Prop
  | header (raw : String) : WrittenAs (header raw) (headerLine raw)
  | entry (key : String) {value : String} {spelling : List Char} (h : Spells value spelling) :
    WrittenAs (entry key value) (entryLine key spelling)

/-- The lines of a section, in order. -/
def Section.lines (part : Section) : List Line :=
  match part.body with
  | .scalar value => [.entry part.header value]
  | .entries values => .header part.header :: values.map fun (key, value) => .entry key value

/-- The text consists of the given lines. A line feed after the last of them
does not matter. -/
def HasLines (text : String) (lines : List (List Char)) : Prop :=
  text.toList = ['\n'].intercalate lines ∨ text.toList = lines.flatMap (· ++ ['\n'])

/-- The text writes the sections, line by line. -/
def WrittenAs (parts : List Section) (text : String) : Prop :=
  ∃ written, List.Forall₂ Line.WrittenAs (parts.flatMap Section.lines) written ∧
    HasLines text written

/-- What a section says: everything but the place where it stands. -/
def Section.content (part : Section) : String × Body :=
  (part.header, part.body)

theorem Line.WrittenAs.read {line : Line} {written : List Char} (h : line.WrittenAs written)
    (hline : line.WellFormed) : Line.read written = .ok line := by
  cases h with
  | header raw => exact read_headerLine hline
  | entry key hspelling => exact read_entryLine hline.1 hspelling

theorem Line.WrittenAs.no_lineFeed {line : Line} {written : List Char}
    (h : line.WrittenAs written) (hline : line.WellFormed) : '\n' ∉ written := by
  cases h with
  | header raw => exact no_lineFeed_headerLine hline
  | entry key hspelling => exact no_lineFeed_entryLine hline.1 hline.2 hspelling

/-- Lines that all end with a line feed are lines between line feeds, with an
empty one at the end. -/
theorem flatMap_append_lineFeed (lines : List (List Char)) :
    lines.flatMap (· ++ ['\n']) = ['\n'].intercalate (lines ++ [[]]) := by
  induction lines with
  | nil => rfl
  | cons line lines ih =>
    have hne : lines ++ [[]] ≠ [] := by simp
    rw [List.flatMap_cons, ih, List.cons_append, List.intercalate_cons_of_ne_nil hne]

/-- The lines of a text are what stands between its line feeds, up to an empty
line at the end. -/
theorem HasLines.splitOn {text : String} {lines : List (List Char)} (h : HasLines text lines)
    (hlines : ∀ line ∈ lines, '\n' ∉ line) :
    ∃ rest, (∀ line ∈ rest, line = []) ∧ text.toList.splitOn '\n' = lines ++ rest := by
  -- Whether or not a line feed ends the text, an empty last line makes it so.
  have hended : text.toList = ['\n'].intercalate (lines ++ [[]]) →
      text.toList.splitOn '\n' = lines ++ [[]] := by
    intro heq
    rw [heq]
    apply List.splitOn_intercalate
    · intro line hline
      rcases List.mem_append.mp hline with hline | hline
      · exact hlines line hline
      · rw [List.mem_singleton.mp hline]
        exact List.not_mem_nil
    · simp
  rcases h with h | h
  · cases lines with
    | nil => exact ⟨[[]], by simp, hended h⟩
    | cons line more =>
      refine ⟨[], by simp, ?_⟩
      rw [h, List.append_nil]
      exact List.splitOn_intercalate '\n' hlines (by simp)
  · exact ⟨[[]], by simp, hended (h.trans (flatMap_append_lineFeed lines))⟩

theorem forall₂_read_of_written {lines : List Line} {written : List (List Char)}
    (h : List.Forall₂ Line.WrittenAs lines written) (hlines : ∀ line ∈ lines, line.WellFormed) :
    List.Forall₂ (fun piece line => Line.read piece = .ok line) written lines := by
  induction h with
  | nil => exact .nil
  | cons hline _ ih =>
    rcases List.forall_mem_cons.mp hlines with ⟨hfirst, hrest⟩
    exact .cons (hline.read hfirst) (ih hrest)

theorem no_lineFeed_of_written {lines : List Line} {written : List (List Char)}
    (h : List.Forall₂ Line.WrittenAs lines written) (hlines : ∀ line ∈ lines, line.WellFormed) :
    ∀ piece ∈ written, '\n' ∉ piece := by
  induction h with
  | nil => simp
  | cons hline _ ih =>
    rcases List.forall_mem_cons.mp hlines with ⟨hfirst, hrest⟩
    exact List.forall_mem_cons.mpr ⟨hline.no_lineFeed hfirst, ih hrest⟩

theorem readLines_of_written {text : String} {lines : List Line} {written : List (List Char)}
    (htext : HasLines text written) (h : List.Forall₂ Line.WrittenAs lines written)
    (hlines : ∀ line ∈ lines, line.WellFormed) :
    ∃ remarks, (∀ line ∈ remarks, line = .remark) ∧
      readLines text = .ok (numbered 1 (lines ++ remarks)) := by
  rcases htext.splitOn (no_lineFeed_of_written h hlines) with ⟨rest, hrest, hsplit⟩
  refine ⟨rest.map fun _ => .remark, by simp, readLines_eq_ok_iff.mpr ⟨_, ?_, rfl⟩⟩
  rw [hsplit]
  apply List.rel_append (forall₂_read_of_written h hlines)
  rw [List.forall₂_map_right_iff, List.forall₂_same]
  intro line hline
  rw [hrest line hline]
  rfl

theorem Section.WellFormed.lines {part : Section} (h : part.WellFormed) :
    ∀ line ∈ part.lines, line.WellFormed := by
  unfold Section.WellFormed at h
  unfold Section.lines
  cases hbody : part.body with
  | scalar value =>
    rw [hbody] at h
    intro line hline
    rw [List.mem_singleton.mp hline]
    exact h
  | entries values =>
    rw [hbody] at h
    intro line hline
    rcases List.mem_cons.mp hline with rfl | hline
    · exact h.1
    · rcases List.mem_map.mp hline with ⟨binding, hbinding, rfl⟩
      exact h.2.2 binding hbinding

theorem WellFormed.lines {parts : List Section} (h : WellFormed parts) :
    ∀ line ∈ parts.flatMap Section.lines, line.WellFormed := by
  intro line hline
  rcases List.mem_flatMap.mp hline with ⟨part, hpart, hline⟩
  exact (h.sections part hpart).lines line hline

theorem foldl_add_remarks {remarks : List Line} (h : ∀ line ∈ remarks, line = .remark)
    (first : Nat) (draft : Draft) : (numbered first remarks).foldl Draft.add draft = draft := by
  induction remarks generalizing first with
  | nil => rfl
  | cons line remarks ih =>
    rcases List.forall_mem_cons.mp h with ⟨hline, hrest⟩
    subst hline
    exact ih hrest (first + 1)

/-- The sections with the lines at which they are written from line `first` on. -/
def relined (first : Nat) : List Section → List Section
  | [] => []
  | part :: parts => { part with line := first } :: relined (first + part.lines.length) parts

theorem content_relined (first : Nat) (parts : List Section) :
    (relined first parts).map Section.content = parts.map Section.content := by
  induction parts generalizing first with
  | nil => rfl
  | cons part parts ih =>
    apply congrArg (part.content :: ·)
    exact ih _

/-- The lines of a section add it to a draft, where no other section has its
header and nothing but such a header has been read before an entry that stands
for itself. -/
theorem foldl_add_lines {draft : Draft} {part : Section} (hpart : part.WellFormed)
    (hnew : ∀ earlier ∈ draft.sections, earlier.isHeaded → earlier.header ≠ part.header)
    (hcurrent : draft.current ≠ none → part.isHeaded) (first : Nat) :
    (numbered first part.lines).foldl Draft.add draft =
      ⟨draft.sections ++ [{ part with line := first }],
        if part.isHeaded then some part.header else none⟩ := by
  rcases part with ⟨header, line, body⟩
  cases body with
  | scalar value =>
    have hnone : draft.current = none := by
      by_contra hsome
      cases hcurrent hsome
    simp [Section.lines, Section.isHeaded, numbered, Draft.add, hnone]
  | entries values =>
    have hclosed : ∀ earlier ∈ draft.sections, earlier.isOpenedBy header = false := by
      intro earlier hearlier
      rw [Bool.eq_false_iff]
      intro hopen
      rcases Section.isOpenedBy_iff.mp hopen with ⟨hheaded, hsame⟩
      exact hnew earlier hearlier hheaded hsame
    have hstart : draft.add (first, .header header) =
        ⟨draft.sections ++ [⟨header, first, .entries []⟩], some header⟩ := by
      unfold Draft.add
      dsimp only
      rw [if_neg]
      simpa using hclosed
    have hkeys : (Bindings.keys ([] ++ values)).Nodup := hpart.2.1
    rw [Section.lines, numbered, List.foldl_cons, hstart,
      foldl_add_entries hclosed first (map_snd_numbered _ _), Bindings.foldl_insert_of_nodup hkeys]
    rfl

/-- The lines of well-formed sections add these to a draft, one after the other. -/
theorem sections_foldl_add {parts : List Section} (h : WellFormed parts) {draft : Draft}
    (hnew : ∀ earlier ∈ draft.sections, ∀ part ∈ parts, earlier.isHeaded →
      earlier.header ≠ part.header)
    (hcurrent : draft.current ≠ none → ∀ part ∈ parts, part.isHeaded) (first : Nat) :
    ((numbered first (parts.flatMap Section.lines)).foldl Draft.add draft).sections =
      draft.sections ++ relined first parts := by
  induction parts generalizing draft first with
  | nil => exact (List.append_nil _).symm
  | cons part parts ih =>
    rcases List.pairwise_cons.mp h.order with ⟨hprecedes, horder⟩
    rcases List.forall_mem_cons.mp h.sections with ⟨hpart, hparts⟩
    have hadd := foldl_add_lines hpart
      (fun earlier hearlier => hnew earlier hearlier part (List.mem_cons_self ..))
      (fun hsome => hcurrent hsome part (List.mem_cons_self ..)) first
    rw [List.flatMap_cons, numbered_append, List.foldl_append, hadd, ih ⟨hparts, horder⟩]
    · simp [relined]
    · intro earlier hearlier later hlater hheaded
      rcases List.mem_append.mp hearlier with hearlier | hearlier
      · exact hnew earlier hearlier later (List.mem_cons_of_mem _ hlater) hheaded
      · rw [List.mem_singleton.mp hearlier] at hheaded ⊢
        exact (hprecedes later hlater).header_ne hheaded
    · intro hsome later hlater
      apply (hprecedes later hlater).isHeaded
      by_contra hscalar
      exact hsome (if_neg hscalar)

/-- Written sections are read back, at the lines at which they were written. -/
theorem sections_of_writtenAs {parts : List Section} {text : String} (h : WellFormed parts)
    (htext : WrittenAs parts text) : sections text = .ok (relined 1 parts) := by
  rcases htext with ⟨written, hwritten, htext⟩
  rcases readLines_of_written htext hwritten h.lines with ⟨remarks, hremarks, hread⟩
  have hassemble : assemble (numbered 1 (parts.flatMap Section.lines ++ remarks)) =
      relined 1 parts := by
    rw [assemble, numbered_append, List.foldl_append, foldl_add_remarks hremarks,
      sections_foldl_add h (by simp [Draft.empty]) (by simp [Draft.empty])]
    rfl
  rw [sections, hread]
  exact congrArg Except.ok hassemble

/-- A line with its value, if it has one, in double quotes. -/
def Line.text : Line → List Char
  | remark => []
  | header raw => headerLine raw
  | entry key value => entryLine key (doubleQuoted value)

/-- A text that writes the sections with all values in double quotes. -/
def document (parts : List Section) : String :=
  String.ofList (['\n'].intercalate ((parts.flatMap Section.lines).map Line.text))

theorem Section.writtenAs_text {part : Section} {line : Line} (h : line ∈ part.lines) :
    line.WrittenAs line.text := by
  cases line with
  | remark =>
    unfold Section.lines at h
    split at h <;> simp at h
  | header raw => exact .header raw
  | entry key value => exact .entry key .double

theorem forall₂_writtenAs_text (parts : List Section) :
    List.Forall₂ Line.WrittenAs (parts.flatMap Section.lines)
      ((parts.flatMap Section.lines).map Line.text) := by
  rw [List.forall₂_map_right_iff, List.forall₂_same]
  intro line hline
  rcases List.mem_flatMap.mp hline with ⟨part, -, hline⟩
  exact Section.writtenAs_text hline

theorem writtenAs_document (parts : List Section) : WrittenAs parts (document parts) :=
  ⟨_, forall₂_writtenAs_text parts, .inl String.toList_ofList⟩

/-- Which sections documents have. What can be read is well formed, and every
well-formed list of sections can be written and is read back from whatever writes it. -/
theorem sections_wellFormed_and_reread :
    (∀ (text : String) (parts : List Section), sections text = .ok parts → WellFormed parts) ∧
      ∀ parts : List Section, WellFormed parts →
        (∃ text, WrittenAs parts text) ∧
          ∀ text, WrittenAs parts text →
            ∃ read, sections text = .ok read ∧
              read.map Section.content = parts.map Section.content := by
  refine ⟨fun text parts => wellFormed_of_sections, ?_⟩
  intro parts hparts
  refine ⟨⟨document parts, writtenAs_document parts⟩, ?_⟩
  intro text htext
  exact ⟨relined 1 parts, sections_of_writtenAs hparts htext, content_relined 1 parts⟩

/-- A bracket inside a header, and each of the three ways to write a value. -/
theorem reread_bracketed_header :
    ∃ read, sections "a = \"\\\"\\\\\"\n[p]q]\nk = ' ; '\nl = plain\n" = .ok read ∧
      read.map Section.content =
        [("a", .scalar "\"\\"), ("p]q", .entries [("k", " ; "), ("l", "plain")])] := by
  have hread : sections "a = \"\\\"\\\\\"\n[p]q]\nk = ' ; '\nl = plain\n" =
      .ok [⟨"a", 1, .scalar "\"\\"⟩, ⟨"p]q", 2, .entries [("k", " ; "), ("l", "plain")]⟩] := by
    decide +kernel
  have hwell := sections_wellFormed_and_reread.1 _ _ hread
  refine (sections_wellFormed_and_reread.2 _ hwell).2 _
    ⟨[entryLine "a" (doubleQuoted "\"\\"), headerLine "p]q",
      entryLine "k" ('\'' :: (" ; ".toList ++ ['\''])), entryLine "l" "plain".toList],
      ?_, .inr (by decide +kernel)⟩
  refine .cons (.entry "a" .double) (.cons (.header "p]q") (.cons (.entry "k" (.single ?_))
    (.cons (.entry "l" (.plain ?_ ?_ ?_)) .nil)))
  · decide
  · decide +kernel
  · decide
  · simp

end LayeredIni.Document
