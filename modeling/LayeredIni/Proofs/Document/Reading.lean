/-
# Documents line by line

A text consists of lines, and whether it can be read is a matter of each line by
itself: the first line that cannot be read is reported with its number. If every
line can be read, what the sections say depends on what the lines say, in order.
Remarks and the numbers of the lines have no part in it.
-/

import LayeredIni.Proofs.Document.Writing

namespace LayeredIni.Document

open LayeredIni.Text LayeredIni.Fallible

/-- The text consists of these lines. A line feed after the last one does not matter. -/
structure ConsistsOf (text : String) (lines : List (List Char)) : Prop where
  hasLines : HasLines text lines
  no_lineFeed : ∀ line ∈ lines, '\n' ∉ line

theorem consistsOf_splitOn (text : String) : ConsistsOf text (text.toList.splitOn '\n') where
  hasLines := .inl (List.intercalate_splitOn '\n').symm
  no_lineFeed := fun _ hline => not_mem_of_mem_splitOn hline

/-- A line that can be read. -/
def IsReadable (line : List Char) : Prop :=
  ∃ content, Line.read line = .ok content

/-- What a line says. A line that cannot be read says nothing. -/
def meaning (line : List Char) : Line :=
  match Line.read line with
  | .ok content => content
  | .error _ => .remark

theorem meaning_of_read {line : List Char} {content : Line} (h : Line.read line = .ok content) :
    meaning line = content := by
  rw [meaning, h]

theorem IsReadable.read_eq {line : List Char} (h : IsReadable line) :
    Line.read line = .ok (meaning line) := by
  obtain ⟨content, hread⟩ := h
  rw [hread, meaning_of_read hread]

/-- Either every line can be read, or there is a first one that cannot. -/
theorem readable_or_exists_first (lines : List (List Char)) :
    (∀ line ∈ lines, IsReadable line) ∨
      ∃ before line after fault, lines = before ++ line :: after ∧
        (∀ earlier ∈ before, IsReadable earlier) ∧ Line.read line = .error fault := by
  induction lines with
  | nil => exact .inl (List.forall_mem_nil _)
  | cons line lines ih =>
    cases hread : Line.read line with
    | error fault => exact .inr ⟨[], line, lines, fault, rfl, List.forall_mem_nil _, hread⟩
    | ok content =>
      have hline : IsReadable line := ⟨content, hread⟩
      rcases ih with hall | ⟨before, bad, after, fault, rfl, hbefore, hbad⟩
      · exact .inl (List.forall_mem_cons.mpr ⟨hline, hall⟩)
      · exact .inr ⟨line :: before, bad, after, fault, rfl,
          List.forall_mem_cons.mpr ⟨hline, hbefore⟩, hbad⟩

/-- What the sections say that lines with these contents form. -/
def contents (lines : List Line) : List (String × Body) :=
  (assemble (lines.map fun line => (0, line))).map Section.content

/-- A section without its place. -/
def Section.unplaced (part : Section) : Section :=
  { part with line := 0 }

/-- A draft without the places of its sections. -/
def Draft.unplaced (draft : Draft) : Draft :=
  ⟨draft.sections.map Section.unplaced, draft.current⟩

theorem Section.unplaced_addEntry (raw key value : String) (part : Section) :
    (part.addEntry raw key value).unplaced = part.unplaced.addEntry raw key value := by
  unfold addEntry unplaced
  cases hbody : part.body with
  | scalar text => simp [hbody]
  | entries values => by_cases hraw : part.header = raw <;> simp [hraw, hbody]

/-- The number of a line has no influence but on places. -/
theorem Draft.unplaced_add (draft : Draft) (number : Nat) (line : Line) :
    (draft.add (number, line)).unplaced = draft.unplaced.add (0, line) := by
  cases line with
  | remark => rfl
  | header raw =>
    have hopened : draft.unplaced.sections.any (·.isOpenedBy raw) =
        draft.sections.any (·.isOpenedBy raw) := List.any_map
    unfold add
    dsimp only
    rw [hopened]
    split
    · rfl
    · simp [unplaced, Section.unplaced]
  | entry key value =>
    unfold add
    dsimp only
    rw [show draft.unplaced.current = draft.current from rfl]
    split
    · simp [unplaced, Section.unplaced]
    · simp [unplaced, Function.comp_def, Section.unplaced_addEntry]

theorem Draft.unplaced_foldl_add (draft : Draft) (lines : List (Nat × Line)) :
    (lines.foldl Draft.add draft).unplaced =
      (lines.map fun line => (0, line.2)).foldl Draft.add draft.unplaced := by
  induction lines generalizing draft with
  | nil => rfl
  | cons line lines ih =>
    obtain ⟨number, content⟩ := line
    rw [List.foldl_cons, ih, unplaced_add]
    rfl

/-- The numbers of the lines do not count for what the sections say. -/
theorem content_assemble (lines : List (Nat × Line)) :
    (assemble lines).map Section.content = contents (lines.map Prod.snd) := by
  have hplaces := congrArg Draft.sections (Draft.unplaced_foldl_add .empty lines)
  have hcontent : Section.content ∘ Section.unplaced = Section.content := rfl
  calc
    (assemble lines).map Section.content =
        ((assemble lines).map Section.unplaced).map Section.content := by
      rw [List.map_map (l := assemble lines), hcontent]
    _ = contents (lines.map Prod.snd) := by
      rw [contents, List.map_map (l := lines)]
      exact congrArg (List.map Section.content) hplaces

theorem contents_filter (lines : List Line) :
    contents (lines.filter (· ≠ .remark)) = contents lines := by
  have hassemble := foldl_add_filter (lines.map fun line => (0, line)) .empty
  rw [List.filter_map] at hassemble
  exact congrArg (fun draft => draft.sections.map Section.content) hassemble

/-- A text can be read if each of its lines can, and its sections are those that
its lines form, numbered from 1. -/
theorem ConsistsOf.sections_eq {text : String} {lines : List (List Char)}
    (h : ConsistsOf text lines) (hread : ∀ line ∈ lines, IsReadable line) :
    sections text = .ok (assemble (numbered 1 (lines.map meaning))) := by
  obtain ⟨rest, hrest, hsplit⟩ := h.hasLines.splitOn h.no_lineFeed
  have hsaid : List.Forall₂ (fun piece line => Line.read piece = .ok line)
      (text.toList.splitOn '\n') ((lines ++ rest).map meaning) := by
    rw [hsplit, List.forall₂_map_right_iff, List.forall₂_same]
    intro line hline
    rcases List.mem_append.mp hline with hline | hline
    · exact (hread line hline).read_eq
    · rw [hrest line hline]
      rfl
  have hremarks : ∀ line ∈ rest.map meaning, line = .remark := by
    intro line hline
    obtain ⟨piece, hpiece, rfl⟩ := List.mem_map.mp hline
    rw [hrest piece hpiece]
    rfl
  rw [sections, readLines_eq_ok_iff.mpr ⟨_, hsaid, rfl⟩, List.map_append, numbered_append]
  show Except.ok (assemble _) = _
  rw [assemble, List.foldl_append, foldl_add_remarks hremarks]
  rfl

/-- What the sections of a text say is what its lines form. -/
theorem ConsistsOf.exists_sections {text : String} {lines : List (List Char)}
    (h : ConsistsOf text lines) (hread : ∀ line ∈ lines, IsReadable line) :
    ∃ parts, sections text = .ok parts ∧
      parts.map Section.content = contents (lines.map meaning) := by
  refine ⟨_, h.sections_eq hread, ?_⟩
  rw [content_assemble, map_snd_numbered]

theorem readable_of_forall₂ {pieces : List (List Char)} {lines : List Line}
    (h : List.Forall₂ (fun piece line => Line.read piece = .ok line) pieces lines) :
    ∀ piece ∈ pieces, IsReadable piece := by
  induction h with
  | nil => exact List.forall_mem_nil _
  | cons hread _ ih => exact List.forall_mem_cons.mpr ⟨⟨_, hread⟩, ih⟩

theorem ConsistsOf.readable {text : String} {lines : List (List Char)} (h : ConsistsOf text lines)
    {parts : List Section} (hsections : sections text = .ok parts) :
    ∀ line ∈ lines, IsReadable line := by
  obtain ⟨rest, hrest, hsplit⟩ := h.hasLines.splitOn h.no_lineFeed
  unfold sections at hsections
  cases hlines : readLines text with
  | error error =>
    rw [hlines] at hsections
    cases hsections
  | ok read =>
    obtain ⟨said, hread, -⟩ := readLines_eq_ok_iff.mp hlines
    rw [hsplit] at hread
    intro line hline
    exact readable_of_forall₂ hread line (List.mem_append_left rest hline)

/-- The first line that cannot be read is reported. -/
theorem ConsistsOf.sections_eq_error {text : String} {before after : List (List Char)}
    {line : List Char} {fault : LineFault} (h : ConsistsOf text (before ++ line :: after))
    (hbefore : ∀ earlier ∈ before, IsReadable earlier) (hline : Line.read line = .error fault) :
    sections text = .error ⟨before.length + 1, fault⟩ := by
  obtain ⟨rest, -, hsplit⟩ := h.hasLines.splitOn h.no_lineFeed
  have hlines : readLines text = .error ⟨before.length + 1, fault⟩ := by
    rw [readLines, hsplit, List.append_assoc, List.zipIdx_append, List.cons_append,
      List.zipIdx_cons, Nat.add_comm]
    apply mapM_eq_error
    · rintro ⟨earlier, number⟩ hmem
      have hearlier := hbefore earlier (List.fst_mem_of_mem_zipIdx hmem)
      exact ⟨_, readLine_eq_ok_iff.mpr ⟨_, hearlier.read_eq, rfl⟩⟩
    · show readLine line (before.length + 1) = _
      rw [readLine, hline]
  rw [sections, hlines]
  rfl

/-- The line that is reported is the first one that cannot be read. -/
theorem ConsistsOf.exists_of_sections_eq_error {text : String} {lines : List (List Char)}
    {error : Error} (h : ConsistsOf text lines) (herror : sections text = .error error) :
    ∃ before line after, lines = before ++ line :: after ∧
      (∀ earlier ∈ before, IsReadable earlier) ∧ Line.read line = .error error.fault ∧
      error.line = before.length + 1 := by
  rcases readable_or_exists_first lines with
    hread | ⟨before, line, after, fault, rfl, hbefore, hline⟩
  · rw [h.sections_eq hread] at herror
    cases herror
  · rw [h.sections_eq_error hbefore hline] at herror
    cases herror
    exact ⟨before, line, after, rfl, hbefore, hline, rfl⟩

end LayeredIni.Document
