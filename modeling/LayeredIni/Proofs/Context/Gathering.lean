/-
# Repeated headers

A header that is repeated verbatim opens its first section again, wherever that
one is. The lines below it could therefore as well stand in the first block with
the header, below the lines that are there already, and the header need not be
repeated. `gather` moves them there.
-/

import LayeredIni.Proofs.Context.Layout
import LayeredIni.Proofs.Document.Blocks

namespace LayeredIni

namespace Document

/-- A block with the lines of others below its own ones. -/
def Block.extend (block : Block) (others : List Block) : Block where
  header := block.header
  line := block.line
  body := block.body ++ others.flatMap Block.body
  line_meaning := block.line_meaning
  body_meaning := by
    intro piece hpiece
    rcases List.mem_append.mp hpiece with hown | hother
    · exact block.body_meaning piece hown
    · obtain ⟨other, -, hpiece⟩ := List.mem_flatMap.mp hother
      exact other.body_meaning piece hpiece

/-- The blocks with another header. -/
def blocksApart (raw : String) (blocks : List Block) : List Block :=
  blocks.filter (·.header ≠ raw)

/-- The blocks with the lines of all blocks with the same header, in order, in the
first one of them. -/
def gather : List Block → List Block
  | [] => []
  | block :: blocks =>
    block.extend (blocksUnder block.header blocks) :: gather (blocksApart block.header blocks)
termination_by blocks => blocks.length
decreasing_by exact Nat.lt_succ_of_le (List.length_filter_le _ _)

/-- The outline with the lines below each header in one block. -/
def Outline.gathered (outline : Outline) : Outline :=
  { outline with blocks := gather outline.blocks }

theorem headers_blocksApart (raw : String) (blocks : List Block) :
    (blocksApart raw blocks).map Block.header = (blocks.map Block.header).filter (· ≠ raw) :=
  headers_filter (fun name => name ≠ raw) blocks

theorem entriesUnder_blocksApart {raw other : String} (h : raw ≠ other) (blocks : List Block) :
    entriesUnder raw (blocksApart other blocks) = entriesUnder raw blocks :=
  entriesUnder_filter (fun name => name ≠ other) (by simpa using h) blocks

/-- Each header is left at its first appearance. -/
theorem headers_gather (blocks : List Block) :
    (gather blocks).map Block.header = (blocks.map Block.header).eraseDups := by
  induction blocks using gather.induct with
  | case1 => simp [gather]
  | case2 block blocks ih =>
    have hothers : (blocks.map Block.header).filter (· ≠ block.header) =
        (blocks.map Block.header).filter fun name => !name == block.header :=
      List.filter_congr fun name _ => by rw [beq_eq_decide, decide_not]
    rw [gather, List.map_cons, ih, headers_blocksApart, hothers, List.map_cons,
      List.eraseDups_cons]
    rfl

/-- The entries of several blocks are those of one block with all their lines. -/
theorem entriesOf_body_extend (block : Block) (others : List Block) :
    entriesOf (block.extend others).body =
      entriesOf block.body ++ others.flatMap fun other => entriesOf other.body := by
  rw [Block.extend, entriesOf, List.filterMap_append, List.filterMap_flatMap]
  rfl

theorem entriesUnder_cons (raw : String) (block : Block) (blocks : List Block) :
    entriesUnder raw (block :: blocks) =
      (if block.header = raw then entriesOf block.body else []) ++ entriesUnder raw blocks := by
  by_cases hraw : block.header = raw <;> simp [entriesUnder, blocksUnder, hraw]

/-- The entries under a header stay the same, in the same order. -/
theorem entriesUnder_gather (raw : String) (blocks : List Block) :
    entriesUnder raw (gather blocks) = entriesUnder raw blocks := by
  induction blocks using gather.induct with
  | case1 => rw [gather]
  | case2 block blocks ih =>
    have hheader (others : List Block) : (block.extend others).header = block.header := rfl
    rw [gather, entriesUnder_cons, ih, hheader, entriesOf_body_extend, entriesUnder_cons]
    by_cases hraw : block.header = raw
    · -- The block has taken over all entries under its header.
      have hapart : entriesUnder raw (blocksApart block.header blocks) = [] := by
        apply entriesUnder_of_not_mem
        rw [headers_blocksApart, hraw]
        simp
      rw [if_pos hraw, if_pos hraw, hapart, List.append_nil, hraw]
      rfl
    · rw [if_neg hraw, if_neg hraw, entriesUnder_blocksApart (Ne.symm hraw)]

theorem Outline.sections_gathered (outline : Outline) :
    outline.gathered.sections = outline.sections := by
  have hheaded : headed (gather outline.blocks) = headed outline.blocks := by
    funext raw
    rw [headed, entriesUnder_gather, headed]
  rw [sections, gathered, headers_gather, hheaded, eraseDups_eraseDups]
  rfl

theorem mem_of_mem_gather {blocks : List Block} {line : List Char}
    (h : line ∈ (gather blocks).flatMap Block.lines) : line ∈ blocks.flatMap Block.lines := by
  induction blocks using gather.induct with
  | case1 =>
    rw [gather] at h
    exact h
  | case2 block blocks ih =>
    rw [gather, List.flatMap_cons] at h
    rw [List.flatMap_cons, List.mem_append]
    rcases List.mem_append.mp h with hblock | hapart
    · rcases List.mem_cons.mp hblock with hheader | hbody
      · exact .inl (List.mem_cons.mpr (.inl hheader))
      rcases List.mem_append.mp hbody with hown | hother
      · exact .inl (List.mem_cons_of_mem _ hown)
      · obtain ⟨other, hmem, hline⟩ := List.mem_flatMap.mp hother
        exact .inr (List.mem_flatMap.mpr
          ⟨other, List.mem_of_mem_filter hmem, List.mem_cons_of_mem _ hline⟩)
    · obtain ⟨other, hmem, hline⟩ := List.mem_flatMap.mp (ih hapart)
      exact .inr (List.mem_flatMap.mpr ⟨other, List.mem_of_mem_filter hmem, hline⟩)

theorem Outline.mem_of_mem_gathered {outline : Outline} {line : List Char}
    (h : line ∈ outline.gathered.lines) : line ∈ outline.lines := by
  rw [lines, List.mem_append] at h ⊢
  exact h.imp_right mem_of_mem_gather

end Document

open LayeredIni.Document

namespace Context

/-- A repeated header could as well be left out. If a document can be read, so
can the one with the lines of all blocks with the same header moved to the first
of them. It has the same sections up to their places, which are those that the
blocks describe, and every context reads it as the same. -/
theorem parse_of_gathered {text gathered : String} {lines : List (List Char)}
    {parts : List Section} (htext : ConsistsOf text lines)
    (hgathered : ConsistsOf gathered (Outline.ofLines lines).gathered.lines)
    (hparts : sections text = .ok parts) :
    ∃ parts', sections gathered = .ok parts' ∧
      parts'.map Section.content = parts.map Section.content ∧
      parts.map Section.content = (Outline.ofLines lines).sections.map Section.content ∧
      ∀ context : Context, context.parse gathered = context.parse text := by
  obtain ⟨hread, hcontent⟩ := htext.outline hparts
  obtain ⟨parts', hparts', hcontent'⟩ := hgathered.exists_sections_outline
    fun line hline => hread line (Outline.mem_of_mem_gathered hline)
  have hboth : parts'.map Section.content = parts.map Section.content := by
    rw [hcontent', hcontent, Outline.sections_gathered]
  exact ⟨parts', hparts', hboth, hcontent, fun context => parse_of_content hparts hparts' hboth⟩

/-- Two headers in turn, one of them with a key that it repeats. -/
theorem parse_of_gathered_interleaved :
    let text := "k = 0\n[a]\nx = 1\n[b : a]\n[a] ; again\ny = 2\nx = 3\n[b : a]\ny = 4\n"
    let lines := ["k = 0", "[a]", "x = 1", "[b : a]", "[a] ; again", "y = 2", "x = 3", "[b : a]",
      "y = 4"].map String.toList
    let gathered := "k = 0\n[a]\nx = 1\ny = 2\nx = 3\n[b : a]\ny = 4"
    ConsistsOf text lines ∧ ConsistsOf gathered (Outline.ofLines lines).gathered.lines ∧
      ∃ parts, sections gathered = .ok parts ∧
        parts.map Section.content = [("k", .scalar "0"), ("a", .entries [("x", "3"), ("y", "2")]),
          ("b : a", .entries [("y", "4")])] ∧
        ∀ context : Context, context.parse gathered = context.parse text := by
  intro text lines gathered
  have htext : ConsistsOf text lines := ⟨.inr (by decide +kernel), by decide +kernel⟩
  have hgathered : ConsistsOf gathered (Outline.ofLines lines).gathered.lines :=
    ⟨.inl (by decide +kernel), by decide +kernel⟩
  have hparts : sections text = .ok [⟨"k", 1, .scalar "0"⟩,
      ⟨"a", 2, .entries [("x", "3"), ("y", "2")]⟩, ⟨"b : a", 4, .entries [("y", "4")]⟩] := by
    decide +kernel
  obtain ⟨parts, hsections, hcontent, -, hparse⟩ := parse_of_gathered htext hgathered hparts
  exact ⟨htext, hgathered, parts, hsections, hcontent, hparse⟩

end Context

end LayeredIni
