/-
# Sections that do not count

A section under a condition that does not hold is read, and its header is looked
at, but it has no part in the tree. So all blocks with its header could as well be
missing from the document, and so could an entry before the first header if its
key is such a header.
-/

import LayeredIni.Proofs.Context.Layout
import LayeredIni.Proofs.Document.Blocks

namespace LayeredIni

namespace Document

/-- Whether a line is an entry with one of some keys. -/
def isEntryOf (keys : String → Bool) (line : List Char) : Bool :=
  (meaning line).binding?.any fun entry => keys entry.1

/-- The outline without the blocks of some headers, and without the entries before
the first block that have such a header as their key. -/
def Outline.without (headers : String → Bool) (outline : Outline) : Outline where
  front := outline.front.filter fun line => !isEntryOf headers line
  blocks := outline.blocks.filter fun block => !headers block.header
  front_meaning := fun piece hpiece => outline.front_meaning piece (List.mem_of_mem_filter hpiece)

theorem entriesOf_filter (keys : String → Bool) (lines : List (List Char)) :
    entriesOf (lines.filter fun line => !isEntryOf keys line) =
      (entriesOf lines).filter fun entry => !keys entry.1 := by
  induction lines with
  | nil => rfl
  | cons line lines ih =>
    simp only [entriesOf] at ih ⊢
    cases hbinding : (meaning line).binding? with
    | none =>
      have hkept : isEntryOf keys line = false := by rw [isEntryOf, hbinding]; rfl
      simp [hkept, hbinding, ih]
    | some entry =>
      have hkey : isEntryOf keys line = keys entry.1 := by rw [isEntryOf, hbinding]; rfl
      by_cases hdropped : keys entry.1 = true <;> simp [hkey, hdropped, hbinding, ih]

/-- Leaving blocks out is leaving their sections out. -/
theorem Outline.sections_without (headers : String → Bool) (outline : Outline) :
    (outline.without headers).sections =
      outline.sections.filter fun part => !headers part.header := by
  have hfront : standing (outline.front.filter fun line => !isEntryOf headers line) =
      (standing outline.front).filter fun part => !headers part.header := by
    rw [standing, entriesOf_filter, standing, List.filter_map]
    rfl
  have hheaded : ∀ raw, headers raw = false →
      headed (outline.blocks.filter fun block => !headers block.header) raw =
        headed outline.blocks raw := by
    intro raw hraw
    rw [headed, entriesUnder_filter (fun name => !headers name) (by simp [hraw]), headed]
  rw [sections, sections, without, List.filter_append, hfront,
    headers_filter fun name => !headers name, eraseDups_filter, List.filter_map]
  congr 1
  apply List.map_congr_left
  intro raw hraw
  exact hheaded raw (by simpa using (List.mem_filter.mp hraw).2)

theorem Outline.mem_of_mem_without {headers : String → Bool} {outline : Outline}
    {line : List Char} (h : line ∈ (outline.without headers).lines) : line ∈ outline.lines := by
  rw [lines, List.mem_append] at h ⊢
  refine h.imp List.mem_of_mem_filter ?_
  intro hblock
  obtain ⟨block, hmem, hline⟩ := List.mem_flatMap.mp hblock
  exact List.mem_flatMap.mpr ⟨block, List.mem_of_mem_filter hmem, hline⟩

end Document

open LayeredIni.Document

namespace Context

/-- Whether a header is under a condition that does not hold. -/
def skips (context : Context) (raw : String) : Bool :=
  match Header.parse raw with
  | .ok (.conditional _ condition) => !condition.eval context.scope
  | _ => false

variable {context : Context}

/-- A section with a header that can be read counts unless its header is skipped. -/
theorem counts_eq_not_skips {part : Section}
    (h : ∃ header, Header.parse part.header = .ok header) :
    context.counts part = !context.skips part.header := by
  obtain ⟨header, hparse⟩ := h
  rw [counts, key?_eq_of_parse hparse, skips, hparse]
  cases header with
  | plain name => rfl
  | inherit child parent => rfl
  | conditional name condition =>
    by_cases hholds : condition.eval context.scope = true <;> simp [Header.key?, hholds]

/-- The tree of sections is that of the sections whose headers are not skipped. -/
theorem treeOfSections_filter_skips {parts : List Section} {tree : Tree}
    (h : context.treeOfSections parts = .ok tree) :
    context.treeOfSections (parts.filter fun part => !context.skips part.header) = .ok tree := by
  have hcounts : parts.filter context.counts =
      parts.filter fun part => !context.skips part.header := by
    apply List.filter_congr
    intro part hpart
    exact counts_eq_not_skips (headers_of_run h part hpart)
  rw [← hcounts]
  exact run_filter h

/-- A skipped section leaves no trace. If a document has a tree, it has the same
one without the blocks whose headers are skipped and without the entries before
the first block whose keys are skipped as headers. -/
theorem parse_without_skipped {text remaining : String} {lines : List (List Char)} {tree : Tree}
    (htext : ConsistsOf text lines)
    (hremaining : ConsistsOf remaining ((Outline.ofLines lines).without context.skips).lines)
    (hparse : context.parse text = .ok tree) : context.parse remaining = .ok tree := by
  obtain ⟨parts, hparts, htree⟩ := parse_eq_ok_iff.mp hparse
  obtain ⟨hread, hcontent⟩ := htext.outline hparts
  obtain ⟨parts', hparts', hcontent'⟩ := hremaining.exists_sections_outline
    fun line hline => hread line (Outline.mem_of_mem_without hline)
  have hfilter (parts : List Section) :
      (parts.filter fun part => !context.skips part.header).map Section.content =
        (parts.map Section.content).filter fun content => !context.skips content.1 := by
    rw [List.filter_map]
    rfl
  have hkept : parts'.map Section.content =
      (parts.filter fun part => !context.skips part.header).map Section.content := by
    rw [hcontent', Outline.sections_without, hfilter, ← hcontent, hfilter]
  refine parse_eq_ok_iff.mpr ⟨parts', hparts', ?_⟩
  rw [treeOfSections_of_content hkept]
  exact treeOfSections_filter_skips htree

/-- A section under a condition that does not hold, in two blocks between which its
parent is copied, and an entry with such a condition in its key. -/
theorem parse_without_skipped_scattered :
    let text := "k (off) = 0\n[a (off)]\nx = 1\n[b : a]\ny = 2\n[a (off)]\nx = 3\n"
    let lines := ["k (off) = 0", "[a (off)]", "x = 1", "[b : a]", "y = 2", "[a (off)]",
      "x = 3"].map String.toList
    let remaining := "[b : a]\ny = 2\n"
    let tree : Tree := ⟨.branch "b" (.scalar "y" "2" .nil) .nil, by decide⟩
    ConsistsOf text lines ∧
      ConsistsOf remaining ((Outline.ofLines lines).without (Context.skips {})).lines ∧
      Context.parse {} text = .ok tree ∧ Context.parse {} remaining = .ok tree := by
  intro text lines remaining tree
  have htext : ConsistsOf text lines := ⟨.inr (by decide +kernel), by decide +kernel⟩
  have hremaining : ConsistsOf remaining
      ((Outline.ofLines lines).without (Context.skips {})).lines :=
    ⟨.inr (by decide +kernel), by decide +kernel⟩
  have hparse : Context.parse {} text = .ok tree := by decide +kernel
  exact ⟨htext, hremaining, hparse, parse_without_skipped htext hremaining hparse⟩

end Context

end LayeredIni
