/-
# Layout

The same lines can be laid out in many ways: with blank lines and comments
between them, with blanks at their ends, and with the carriage returns of some
editors, which are such blanks, before the line feeds. The layout has no
influence on the tree of a document or on the header that is reported. Only the
number of a line that cannot be read moves with the lines above it.
-/

import LayeredIni.Proofs.Context.Failure
import LayeredIni.Proofs.Document.Reading

namespace LayeredIni

open LayeredIni.Text

namespace Document

/-- A line that says nothing: blank, or a comment. -/
def SaysNothing (line : List Char) : Prop :=
  (∀ c ∈ line, isBlank c = true) ∨ StartsComment line

instance (line : List Char) : Decidable (SaysNothing line) :=
  decidable_of_iff (isRemark line = true) isRemark_iff

/-- A line, and what surrounds it in another layout. -/
structure LaidLine where
  line : List Char
  /-- The lines inserted above it. -/
  above : List (List Char)
  /-- The blanks inserted before its first character. -/
  left : List Char
  /-- The blanks inserted after its last character. -/
  right : List Char
  above_saysNothing : ∀ inserted ∈ above, SaysNothing inserted
  left_blank : ∀ c ∈ left, isBlank c = true
  right_blank : ∀ c ∈ right, isBlank c = true

/-- What stands in the place of the line. -/
def LaidLine.lines (laid : LaidLine) : List (List Char) :=
  laid.above ++ [laid.left ++ laid.line ++ laid.right]

/-- The lines of a document in two layouts, an original one and another one. -/
structure Layout where
  laidLines : List LaidLine
  /-- The lines inserted after the last one. -/
  below : List (List Char)
  below_saysNothing : ∀ inserted ∈ below, SaysNothing inserted

namespace Layout

/-- The lines in the original layout. -/
def original (layout : Layout) : List (List Char) :=
  layout.laidLines.map LaidLine.line

/-- The lines in the other layout. -/
def result (layout : Layout) : List (List Char) :=
  layout.laidLines.flatMap LaidLine.lines ++ layout.below

/-- How many lines are inserted above a line with a number, counted from 1. -/
def insertedAbove (layout : Layout) (number : Nat) : Nat :=
  ((layout.laidLines.take number).flatMap LaidLine.above).length

end Layout

theorem SaysNothing.read {line : List Char} (h : SaysNothing line) :
    Line.read line = .ok .remark := by
  have hremark : isRemark (trim line) = true := by
    rcases h with hblank | ⟨blanks, mark, rest, rfl, hblanks, hmark⟩
    · have hempty : trim line = [] := by
        have htrim := trim_append_right hblank []
        rwa [List.nil_append] at htrim
      rw [hempty]
      rfl
    · have hsolid : isBlank mark = false := by
        rcases hmark with rfl | rfl <;> decide
      rw [trim_append_left hblanks, trim_cons hsolid, isRemark_iff]
      exact .inr ⟨[], mark, _, rfl, by simp, hmark⟩
  exact if_pos hremark

theorem SaysNothing.isReadable {line : List Char} (h : SaysNothing line) : IsReadable line :=
  ⟨_, h.read⟩

/-- Blanks at the ends of a line do not count. -/
theorem LaidLine.read_eq (laid : LaidLine) :
    Line.read (laid.left ++ laid.line ++ laid.right) = Line.read laid.line := by
  rw [Line.read, trim_append_of_blank laid.left_blank laid.right_blank, Line.read]

theorem readable_flatMap_lines {laidLines : List LaidLine}
    (h : ∀ line ∈ laidLines.map LaidLine.line, IsReadable line) :
    ∀ line ∈ laidLines.flatMap LaidLine.lines, IsReadable line := by
  intro line hline
  obtain ⟨laid, hlaid, hline⟩ := List.mem_flatMap.mp hline
  rcases List.mem_append.mp hline with hinserted | hown
  · exact (laid.above_saysNothing line hinserted).isReadable
  · rw [List.mem_singleton.mp hown, IsReadable, laid.read_eq]
    exact h laid.line (List.mem_map_of_mem hlaid)

theorem filter_meaning_of_saysNothing {lines : List (List Char)}
    (h : ∀ line ∈ lines, SaysNothing line) :
    (lines.map meaning).filter (· ≠ .remark) = [] := by
  rw [List.filter_eq_nil_iff]
  intro content hcontent
  obtain ⟨line, hline, rfl⟩ := List.mem_map.mp hcontent
  simp [meaning_of_read (h line hline).read]

/-- A line says the same in either layout. -/
theorem LaidLine.filter_meaning (laid : LaidLine) :
    (laid.lines.map meaning).filter (· ≠ .remark) = [meaning laid.line].filter (· ≠ .remark) := by
  have hsame : meaning (laid.left ++ laid.line ++ laid.right) = meaning laid.line := by
    rw [meaning, laid.read_eq, meaning]
  rw [lines, List.map_append, List.filter_append,
    filter_meaning_of_saysNothing laid.above_saysNothing, List.map_singleton, hsame,
    List.nil_append]

/-- The lines form the same sections in either layout, up to the places of the sections. -/
theorem Layout.contents_result (layout : Layout) :
    contents (layout.result.map meaning) = contents (layout.original.map meaning) := by
  have hlines : ∀ laidLines : List LaidLine,
      ((laidLines.flatMap LaidLine.lines).map meaning).filter (· ≠ .remark) =
        ((laidLines.map LaidLine.line).map meaning).filter (· ≠ .remark) := by
    intro laidLines
    induction laidLines with
    | nil => rfl
    | cons laid laidLines ih =>
      rw [List.flatMap_cons, List.map_append, List.filter_append, laid.filter_meaning, ih,
        ← List.filter_append]
      rfl
  rw [← contents_filter, result, List.map_append, List.filter_append, hlines,
    filter_meaning_of_saysNothing layout.below_saysNothing, List.append_nil, contents_filter]
  rfl

/-- A line that is laid out becomes one line more than are inserted above it. -/
theorem length_flatMap_lines (laidLines : List LaidLine) :
    (laidLines.flatMap LaidLine.lines).length =
      laidLines.length + (laidLines.flatMap LaidLine.above).length := by
  induction laidLines with
  | nil => rfl
  | cons laid laidLines ih =>
    simp only [List.flatMap_cons, List.length_append, List.length_cons, ih, LaidLine.lines,
      List.length_nil]
    omega

section Place

variable {layout : Layout} {front back : List LaidLine} {laid : LaidLine}

/-- What stands before a line in the other layout, and what after it. -/
theorem Layout.result_eq (h : layout.laidLines = front ++ laid :: back) :
    layout.result = (front.flatMap LaidLine.lines ++ laid.above) ++
      (laid.left ++ laid.line ++ laid.right) :: (back.flatMap LaidLine.lines ++ layout.below) := by
  simp [result, h, LaidLine.lines]

/-- A line moves by the number of lines that are inserted above it. -/
theorem Layout.length_before (h : layout.laidLines = front ++ laid :: back) :
    (front.flatMap LaidLine.lines ++ laid.above).length =
      front.length + layout.insertedAbove (front.length + 1) := by
  have htake : (front ++ laid :: back).take (front.length + 1) = front ++ [laid] := by
    rw [List.take_length_add_append, List.take_succ_cons, List.take_zero]
  rw [insertedAbove, h, htake, List.length_append, length_flatMap_lines, List.flatMap_append,
    List.length_append, List.flatMap_singleton, Nat.add_assoc]

end Place

/-- The same error, reported for the line to which the layout moves it. -/
def Error.moved (layout : Layout) (error : Error) : Error :=
  { error with line := error.line + layout.insertedAbove error.line }

/-- Reading a document in another layout. It has the same sections up to
their places, or the same line cannot be read. -/
theorem Layout.sections_result {layout : Layout} {text laid : String}
    (htext : ConsistsOf text layout.original) (hlaid : ConsistsOf laid layout.result) :
    (∃ parts parts', sections text = .ok parts ∧ sections laid = .ok parts' ∧
      parts'.map Section.content = parts.map Section.content) ∨
    ∃ error, sections text = .error error ∧ sections laid = .error (error.moved layout) := by
  rcases readable_or_exists_first layout.original with
    hread | ⟨before, line, after, fault, hsplit, hbefore, hline⟩
  · left
    have hresult : ∀ line ∈ layout.result, IsReadable line := by
      rw [result, List.forall_mem_append]
      exact ⟨readable_flatMap_lines hread,
        fun line hline => (layout.below_saysNothing line hline).isReadable⟩
    obtain ⟨parts, hparts, hcontent⟩ := htext.exists_sections hread
    obtain ⟨parts', hparts', hcontent'⟩ := hlaid.exists_sections hresult
    exact ⟨parts, parts', hparts, hparts', by rw [hcontent', hcontent, layout.contents_result]⟩
  · right
    obtain ⟨front, more, hlines, rfl, hmore⟩ := List.map_eq_append_iff.mp hsplit
    obtain ⟨bad, back, rfl, rfl, -⟩ := List.map_eq_cons_iff.mp hmore
    rw [hsplit] at htext
    rw [Layout.result_eq hlines] at hlaid
    have hearlier : ∀ line ∈ front.flatMap LaidLine.lines ++ bad.above, IsReadable line := by
      rw [List.forall_mem_append]
      exact ⟨readable_flatMap_lines hbefore,
        fun line hline => (bad.above_saysNothing line hline).isReadable⟩
    have hbad : Line.read (bad.left ++ bad.line ++ bad.right) = .error fault := by
      rw [bad.read_eq, hline]
    refine ⟨⟨front.length + 1, fault⟩, ?_, ?_⟩
    · rw [htext.sections_eq_error hbefore hline, List.length_map]
    · rw [hlaid.sections_eq_error hearlier hbad, Layout.length_before hlines, Error.moved,
        Nat.add_right_comm]

end Document

open LayeredIni.Document

/-- The same error, reported for the line to which the layout moves it. -/
def ParseError.moved (layout : Layout) : ParseError → ParseError
  | malformed error => malformed (error.moved layout)
  | invalidHeader error => invalidHeader error

namespace Context

variable {context : Context}

theorem treeOfSections_of_content {parts parts' : List Section}
    (h : parts'.map Section.content = parts.map Section.content) :
    context.treeOfSections parts' = context.treeOfSections parts := by
  have hcontent : ∀ parts : List Section, context.treeOfSections parts =
      (parts.map Section.content).foldlM
        (fun tree content => context.place tree ⟨content.1, 0, content.2⟩) .empty := by
    intro parts
    rw [List.foldlM_map]
    rfl
  rw [hcontent, h, hcontent]

theorem parse_of_content {text text' : String} {parts parts' : List Section}
    (h : sections text = .ok parts) (h' : sections text' = .ok parts')
    (hcontent : parts'.map Section.content = parts.map Section.content) :
    context.parse text' = context.parse text := by
  rw [parse_of_sections h, parse_of_sections h', treeOfSections_of_content hcontent]

theorem parse_of_blank (context : Context) {text : String}
    (h : ∀ c ∈ text.toList, isBlank c = true) : context.parse text = .ok .empty := by
  let layout : Layout :=
    ⟨[], text.toList.splitOn '\n', fun line hline =>
      .inl fun c hc => h c (mem_and_ne_of_mem_splitOn hline hc).1⟩
  have hnothing : ConsistsOf "" layout.original := ⟨.inl rfl, List.forall_mem_nil _⟩
  have hempty : sections "" = .ok [] := by decide +kernel
  rcases layout.sections_result hnothing (consistsOf_splitOn text) with
    ⟨parts, parts', hparts, hparts', hcontent⟩ | ⟨error, herror, -⟩
  · rw [parse_of_content hparts hparts' hcontent, parse_of_sections hempty]
    rfl
  · rw [hempty] at herror
    cases herror

/-- Layout does not matter. A document in another layout, with lines that say
nothing between its lines and blanks at the ends of its lines, is read as the
same tree, or fails with the same header, or fails at the same line, whose number
moves by the number of lines that are inserted above it. -/
theorem parse_of_layout (context : Context) {layout : Layout} {text laid : String}
    (htext : ConsistsOf text layout.original) (hlaid : ConsistsOf laid layout.result) :
    context.parse laid = (context.parse text).mapError (ParseError.moved layout) := by
  rcases layout.sections_result htext hlaid with
    ⟨parts, parts', hparts, hparts', hcontent⟩ | ⟨error, herror, hmoved⟩
  · rw [parse_of_content hparts hparts' hcontent]
    cases hparse : context.parse text with
    | ok tree => rfl
    | error error =>
      cases error with
      | invalidHeader error => rfl
      | malformed error =>
        rw [parse_eq_malformed_iff, hparts] at hparse
        cases hparse
  · rw [parse_eq_malformed_iff.mpr herror, parse_eq_malformed_iff.mpr hmoved]
    rfl

/-- A layout with three more lines above the second line, all of which end with
a carriage return where a line ends. -/
def commentedLayout : Layout where
  laidLines :=
    [⟨"a = 1".toList, ["; note".toList], [' '], ['\t', '\r'],
        by decide +kernel, List.all_eq_true.mp (by decide), List.all_eq_true.mp (by decide)⟩,
      ⟨"[b".toList, [['\r'], "  # more\r".toList], [], ['\r'],
        by decide +kernel, List.forall_mem_nil _, List.all_eq_true.mp (by decide)⟩]
  below := [[]]
  below_saysNothing := by decide +kernel

/-- The header without a bracket moves from the second line to the fifth. -/
theorem parse_of_layout_commented :
    ConsistsOf "a = 1\n[b\n" commentedLayout.original ∧
      ConsistsOf "; note\n a = 1\t\r\n\r\n  # more\r\n[b\r\n\n" commentedLayout.result ∧
      Context.parse {} "a = 1\n[b\n" = .error (.malformed ⟨2, .unterminatedHeader⟩) ∧
      Context.parse {} "; note\n a = 1\t\r\n\r\n  # more\r\n[b\r\n\n" =
        .error (.malformed ⟨5, .unterminatedHeader⟩) := by
  have htext : ConsistsOf "a = 1\n[b\n" commentedLayout.original :=
    ⟨.inr (by decide +kernel), by decide +kernel⟩
  have hlaid : ConsistsOf "; note\n a = 1\t\r\n\r\n  # more\r\n[b\r\n\n"
      commentedLayout.result := ⟨.inr (by decide +kernel), by decide +kernel⟩
  have hparse : Context.parse {} "a = 1\n[b\n" = .error (.malformed ⟨2, .unterminatedHeader⟩) := by
    decide +kernel
  refine ⟨htext, hlaid, hparse, ?_⟩
  rw [parse_of_layout {} htext hlaid, hparse]
  rfl

end Context

end LayeredIni
