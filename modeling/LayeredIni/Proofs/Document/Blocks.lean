/-
# Documents block by block

A block is a header line with the lines up to the next header line. The lines of
a document are those before the first header, followed by its blocks, and this
module says what its sections are in these terms: an entry for itself for each
entry before the first block, and then, for each header at its first appearance,
the entries of all blocks with that header.
-/

import LayeredIni.Proofs.Document.Reading

namespace LayeredIni.Document

/-- The header that a line opens. -/
def Line.header? : Line → Option String
  | header raw => some raw
  | _ => none

/-- The key and value that a line gives. -/
def Line.binding? : Line → Option (String × String)
  | entry key value => some (key, value)
  | _ => none

/-- A header line with the lines up to the next one. -/
structure Block where
  /-- The text between the brackets of the header line. -/
  header : String
  /-- The header line as it is written. -/
  line : List Char
  /-- The lines below it. -/
  body : List (List Char)
  line_meaning : meaning line = .header header
  body_meaning : ∀ piece ∈ body, (meaning piece).header? = none

/-- The lines of a block. -/
def Block.lines (block : Block) : List (List Char) :=
  block.line :: block.body

/-- The entries that lines give. -/
def entriesOf (lines : List (List Char)) : Bindings String :=
  lines.filterMap fun line => (meaning line).binding?

/-- The lines of a document, block by block. -/
structure Outline where
  /-- The lines before the first header line. -/
  front : List (List Char)
  blocks : List Block
  front_meaning : ∀ piece ∈ front, (meaning piece).header? = none

namespace Outline

/-- All lines, in order. -/
def lines (outline : Outline) : List (List Char) :=
  outline.front ++ outline.blocks.flatMap Block.lines

/-- The outline of no lines. -/
def empty : Outline :=
  ⟨[], [], List.forall_mem_nil _⟩

/-- The outline with one more line at its front. -/
def cons (line : List Char) (outline : Outline) : Outline :=
  match h : meaning line with
  | .header raw =>
    ⟨[], ⟨raw, line, outline.front, h, outline.front_meaning⟩ :: outline.blocks,
      List.forall_mem_nil _⟩
  | .remark =>
    ⟨line :: outline.front, outline.blocks,
      List.forall_mem_cons.mpr ⟨by rw [h]; rfl, outline.front_meaning⟩⟩
  | .entry _ _ =>
    ⟨line :: outline.front, outline.blocks,
      List.forall_mem_cons.mpr ⟨by rw [h]; rfl, outline.front_meaning⟩⟩

/-- The outline of a list of lines. -/
def ofLines : List (List Char) → Outline :=
  List.foldr cons empty

theorem lines_cons (line : List Char) (outline : Outline) :
    (outline.cons line).lines = line :: outline.lines := by
  unfold cons
  split <;> rfl

theorem lines_ofLines (written : List (List Char)) : (ofLines written).lines = written := by
  induction written with
  | nil => rfl
  | cons line written ih =>
    show ((ofLines written).cons line).lines = _
    rw [lines_cons, ih]

end Outline

/-- The blocks with a header. -/
def blocksUnder (raw : String) (blocks : List Block) : List Block :=
  blocks.filter (·.header = raw)

/-- The entries under a header: those of all blocks with the header, in order. -/
def entriesUnder (raw : String) (blocks : List Block) : Bindings String :=
  (blocksUnder raw blocks).flatMap fun block => entriesOf block.body

/-- The section of a header. Where it stands is left open. -/
def headed (blocks : List Block) (raw : String) : Section :=
  ⟨raw, 0, .entries (entriesUnder raw blocks).collect⟩

/-- The sections of the entries before the first block. -/
def standing (lines : List (List Char)) : List Section :=
  (entriesOf lines).map fun (key, value) => ⟨key, 0, .scalar value⟩

/-- The sections that an outline describes. -/
def Outline.sections (outline : Outline) : List Section :=
  standing outline.front ++
    (outline.blocks.map Block.header).eraseDups.map (headed outline.blocks)

/-- Adds entries to the section if the header `raw` opens it. -/
def Section.addEntries (raw : String) (entries : Bindings String) (part : Section) : Section :=
  entries.foldl (fun part entry => part.addEntry raw entry.1 entry.2) part

theorem Section.addEntries_scalar (raw key value : String) (entries : Bindings String) :
    Section.addEntries raw entries ⟨key, 0, .scalar value⟩ = ⟨key, 0, .scalar value⟩ := by
  induction entries with
  | nil => rfl
  | cons entry entries ih => exact ih

theorem Section.addEntries_entries (raw header : String) (entries values : Bindings String) :
    Section.addEntries raw entries ⟨header, 0, .entries values⟩ =
      ⟨header, 0, .entries (if header = raw then
        entries.foldl (fun known entry => known.insert entry.1 entry.2) values else values)⟩ := by
  induction entries generalizing values with
  | nil => simp [addEntries]
  | cons entry entries ih =>
    have hstep : Section.addEntry raw entry.1 entry.2 ⟨header, 0, .entries values⟩ =
        ⟨header, 0, .entries (if header = raw then values.insert entry.1 entry.2 else values)⟩ := by
      by_cases hraw : header = raw <;> simp [addEntry, hraw]
    rw [addEntries, List.foldl_cons, hstep]
    show Section.addEntries raw entries _ = _
    rw [ih]
    by_cases hraw : header = raw <;> simp [hraw]

namespace Draft

/-- Takes lines into a draft. The sections that they open have no place. -/
def take (draft : Draft) (lines : List (List Char)) : Draft :=
  (lines.map fun line => (0, meaning line)).foldl Draft.add draft

theorem take_append (draft : Draft) (first second : List (List Char)) :
    draft.take (first ++ second) = (draft.take first).take second := by
  rw [take, List.map_append, List.foldl_append]
  rfl

/-- Of lines without a header, only the entries count. -/
theorem take_eq_foldl_entries {lines : List (List Char)}
    (h : ∀ line ∈ lines, (meaning line).header? = none) (draft : Draft) :
    draft.take lines =
      (entriesOf lines).foldl (fun draft entry => draft.add (0, .entry entry.1 entry.2)) draft := by
  induction lines generalizing draft with
  | nil => rfl
  | cons line lines ih =>
    obtain ⟨hline, hlines⟩ := List.forall_mem_cons.mp h
    have hstep : draft.take (line :: lines) = (draft.add (0, meaning line)).take lines := rfl
    rw [hstep, ih hlines, entriesOf, entriesOf, List.filterMap_cons]
    cases hmeaning : meaning line with
    | remark => rfl
    | header raw =>
      rw [hmeaning] at hline
      cases hline
    | entry key value => rfl

/-- Before the first header, entries stand for themselves. -/
theorem foldl_entries_of_none (done : List Section) (entries : Bindings String) :
    entries.foldl (fun draft entry => draft.add (0, .entry entry.1 entry.2))
        (⟨done, none⟩ : Draft) =
      ⟨done ++ entries.map fun (key, value) => ⟨key, 0, .scalar value⟩, none⟩ := by
  induction entries generalizing done with
  | nil => simp
  | cons entry entries ih =>
    rw [List.foldl_cons]
    show List.foldl _ (⟨done ++ [_], none⟩ : Draft) entries = _
    rw [ih, List.append_assoc]
    rfl

/-- After a header, they go to its section. -/
theorem foldl_entries_of_some (done : List Section) (raw : String) (entries : Bindings String) :
    entries.foldl (fun draft entry => draft.add (0, .entry entry.1 entry.2))
        (⟨done, some raw⟩ : Draft) =
      ⟨done.map (Section.addEntries raw entries), some raw⟩ := by
  induction entries generalizing done with
  | nil =>
    have hsame : Section.addEntries raw [] = id := rfl
    simp [hsame]
  | cons entry entries ih =>
    rw [List.foldl_cons]
    show List.foldl _ (⟨done.map (·.addEntry raw entry.1 entry.2), some raw⟩ : Draft) entries = _
    rw [ih, List.map_map]
    rfl

/-- The sections of a draft, among which there is one for a header. -/
def opened (draft : Draft) (raw : String) : List Section :=
  if draft.sections.any (·.isOpenedBy raw) then draft.sections
  else draft.sections ++ [⟨raw, 0, .entries []⟩]

/-- A block opens its section and adds its entries to it. -/
theorem take_block (draft : Draft) (block : Block) :
    draft.take block.lines =
      ⟨(draft.opened block.header).map
        (Section.addEntries block.header (entriesOf block.body)), some block.header⟩ := by
  have hheader : draft.add (0, meaning block.line) =
      ⟨draft.opened block.header, some block.header⟩ := by
    rw [block.line_meaning]
    unfold add opened
    dsimp only
    split <;> rfl
  calc
    draft.take block.lines = (draft.add (0, meaning block.line)).take block.body := rfl
    _ = _ := by
      rw [hheader, take_eq_foldl_entries block.body_meaning, foldl_entries_of_some]

end Draft

theorem entriesUnder_concat (raw : String) (blocks : List Block) (block : Block) :
    entriesUnder raw (blocks ++ [block]) =
      entriesUnder raw blocks ++ if block.header = raw then entriesOf block.body else [] := by
  by_cases hraw : block.header = raw <;> simp [entriesUnder, blocksUnder, hraw]

theorem entriesUnder_of_not_mem {raw : String} {blocks : List Block}
    (h : raw ∉ blocks.map Block.header) : entriesUnder raw blocks = [] := by
  have hnone : blocksUnder raw blocks = [] := by
    rw [blocksUnder, List.filter_eq_nil_iff]
    intro block hblock hraw
    exact h (List.mem_map.mpr ⟨block, hblock, by simpa using hraw⟩)
  rw [entriesUnder, hnone]
  rfl

theorem headers_filter (keep : String → Bool) (blocks : List Block) :
    (blocks.filter fun block => keep block.header).map Block.header =
      (blocks.map Block.header).filter keep := by
  rw [List.filter_map]
  rfl

/-- Blocks with other headers have no part in the entries under a header. -/
theorem entriesUnder_filter (keep : String → Bool) {raw : String} (h : keep raw = true)
    (blocks : List Block) :
    entriesUnder raw (blocks.filter fun block => keep block.header) = entriesUnder raw blocks := by
  have hsame : blocksUnder raw (blocks.filter fun block => keep block.header) =
      blocksUnder raw blocks := by
    rw [blocksUnder, blocksUnder, List.filter_filter]
    apply List.filter_congr
    intro block _
    by_cases hraw : block.header = raw <;> simp [hraw, h]
  rw [entriesUnder, hsame, entriesUnder]

/-- One more block adds its entries to the section of its header. -/
theorem addEntries_headed (blocks : List Block) (block : Block) (raw : String) :
    (headed blocks raw).addEntries block.header (entriesOf block.body) =
      headed (blocks ++ [block]) raw := by
  rw [headed, headed, Section.addEntries_entries, entriesUnder_concat]
  by_cases hraw : raw = block.header
  · simp [hraw, Bindings.collect]
  · have hother : block.header ≠ raw := fun heq => hraw heq.symm
    simp [hraw, hother]

/-- A header opens its section where it first came up, or else a new one at the end. -/
theorem opened_standing_headed (lines : List (List Char)) (blocks : List Block)
    (current : Option String) (raw : String) :
    Draft.opened
        ⟨standing lines ++ (blocks.map Block.header).eraseDups.map (headed blocks), current⟩ raw =
      standing lines ++ (blocks.map Block.header ++ [raw]).eraseDups.map (headed blocks) := by
  have hstanding : (standing lines).any (·.isOpenedBy raw) = false := by
    rw [List.any_eq_false]
    intro part hpart
    obtain ⟨entry, -, rfl⟩ := List.mem_map.mp hpart
    simp [Section.isOpenedBy]
  have hheaded : ((blocks.map Block.header).eraseDups.map (headed blocks)).any
      (·.isOpenedBy raw) = decide (raw ∈ blocks.map Block.header) := by
    rw [Bool.eq_iff_iff, List.any_map, List.any_eq_true, decide_eq_true_iff]
    simp [headed, Section.isOpenedBy]
  unfold Draft.opened
  rw [List.any_append, hstanding, hheaded, Bool.false_or, eraseDups_concat]
  by_cases hraw : raw ∈ blocks.map Block.header
  · simp [hraw]
  · simp [hraw, headed, entriesUnder_of_not_mem hraw, Bindings.collect]

/-- One more block leaves the entries for themselves alone. -/
theorem map_addEntries_standing (raw : String) (entries : Bindings String)
    (lines : List (List Char)) :
    (standing lines).map (Section.addEntries raw entries) = standing lines := by
  rw [standing, List.map_map]
  apply List.map_congr_left
  rintro ⟨key, value⟩ -
  exact Section.addEntries_scalar raw key value entries

/-- The lines of an outline add its sections to an empty draft. -/
theorem exists_take_lines (outline : Outline) :
    ∃ current, Draft.empty.take outline.lines = ⟨outline.sections, current⟩ := by
  obtain ⟨front, blocks, hfront⟩ := outline
  have hstart : Draft.empty.take front = ⟨standing front, none⟩ := by
    rw [Draft.take_eq_foldl_entries hfront]
    exact Draft.foldl_entries_of_none [] (entriesOf front)
  rw [Outline.lines, Draft.take_append, hstart, Outline.sections]
  dsimp only
  induction blocks using List.reverseRecOn with
  | nil => exact ⟨none, by simp [Draft.take]⟩
  | append_singleton blocks block ih =>
    obtain ⟨current, htake⟩ := ih
    have hheaded : Section.addEntries block.header (entriesOf block.body) ∘ headed blocks =
        headed (blocks ++ [block]) := funext (addEntries_headed blocks block)
    refine ⟨some block.header, ?_⟩
    rw [List.flatMap_append, Draft.take_append, htake, List.flatMap_singleton, Draft.take_block,
      opened_standing_headed, List.map_append, map_addEntries_standing, List.map_map, hheaded,
      List.map_append]
    rfl

theorem contents_outline (outline : Outline) :
    contents (outline.lines.map meaning) = outline.sections.map Section.content := by
  obtain ⟨current, htake⟩ := exists_take_lines outline
  rw [contents, assemble, List.map_map (l := outline.lines)]
  exact congrArg (fun draft => draft.sections.map Section.content) htake

/-- The sections of a document, block by block. Each line can be read, and the
sections say what the outline describes. -/
theorem ConsistsOf.outline {text : String} {lines : List (List Char)} {parts : List Section}
    (h : ConsistsOf text lines) (hparts : sections text = .ok parts) :
    (∀ line ∈ (Outline.ofLines lines).lines, IsReadable line) ∧
      parts.map Section.content = (Outline.ofLines lines).sections.map Section.content := by
  have hread := h.readable hparts
  obtain ⟨parts', hparts', hcontent⟩ := h.exists_sections hread
  obtain rfl := Except.ok.inj (hparts.symm.trans hparts')
  rw [← contents_outline, Outline.lines_ofLines]
  exact ⟨hread, hcontent⟩

/-- A text with the lines of an outline has the sections that it describes. -/
theorem ConsistsOf.exists_sections_outline {text : String} {outline : Outline}
    (h : ConsistsOf text outline.lines) (hread : ∀ line ∈ outline.lines, IsReadable line) :
    ∃ parts, sections text = .ok parts ∧
      parts.map Section.content = outline.sections.map Section.content := by
  rw [← contents_outline]
  exact h.exists_sections hread

end LayeredIni.Document
