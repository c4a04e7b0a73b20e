/-
# Which failure is reported

Whether a document can be read is settled by its text alone. A line that cannot
be read comes before any header; of the headers that cannot be read, the first
one in the document is reported, also where the sections before it do not count.
Conditions, separators and the tree under construction have no part in this, so
that all contexts fail on the same documents with the same error.
-/

import LayeredIni.Proofs.Context.Placement
import LayeredIni.Proofs.Document.Section
import LayeredIni.Proofs.Header.Grammar

namespace LayeredIni

open LayeredIni.Fallible

namespace Context

variable {context : Context}

theorem place_eq_error_iff {part : Document.Section} {tree : Tree} {error : Header.Error} :
    context.place tree part = .error error ↔ Header.parse part.header = .error error := by
  cases hparse : Header.parse part.header with
  | error found => simp [place_of_parse_error hparse]
  | ok header => simp [place_of_parse tree hparse]

theorem headers_of_run {parts : List Document.Section} {tree after : Tree}
    (hrun : parts.foldlM context.place tree = .ok after) :
    ∀ part ∈ parts, ∃ header, Header.parse part.header = .ok header := by
  induction parts generalizing tree with
  | nil => exact fun _ hpart => absurd hpart List.not_mem_nil
  | cons part parts ih =>
    obtain ⟨middle, hplace, hrest⟩ := foldlM_cons_eq_ok_iff.mp hrun
    obtain ⟨header, hparse, -⟩ := place_eq_ok_iff.mp hplace
    exact List.forall_mem_cons.mpr ⟨⟨header, hparse⟩, ih hrest⟩

theorem exists_treeOfSections_eq_ok_iff {parts : List Document.Section} :
    (∃ tree, context.treeOfSections parts = .ok tree) ↔
      ∀ part ∈ parts, ∃ header, Header.parse part.header = .ok header := by
  constructor
  · rintro ⟨tree, hrun⟩
    exact headers_of_run hrun
  · exact fun hheaders => exists_run_of_headers hheaders .empty

/-- The first header that cannot be read is the one that is reported. -/
theorem treeOfSections_eq_error_iff {parts : List Document.Section} {error : Header.Error} :
    context.treeOfSections parts = .error error ↔
      ∃ (before after : List Document.Section) (part : Document.Section),
        parts = before ++ part :: after ∧
        (∀ earlier ∈ before, ∃ header, Header.parse earlier.header = .ok header) ∧
        Header.parse part.header = .error error := by
  rw [treeOfSections, foldlM_eq_error_iff]
  constructor
  · rintro ⟨before, part, after, tree, hparts, hbefore, hpart⟩
    exact ⟨before, after, part, hparts, headers_of_run hbefore, place_eq_error_iff.mp hpart⟩
  · rintro ⟨before, after, part, hparts, hbefore, hpart⟩
    obtain ⟨tree, hrun⟩ : ∃ tree, before.foldlM context.place .empty = .ok tree :=
      exists_run_of_headers hbefore .empty
    exact ⟨before, part, after, tree, hparts, hrun, place_eq_error_iff.mpr hpart⟩

theorem parse_eq_malformed_iff {text : String} {error : Document.Error} :
    context.parse text = .error (.malformed error) ↔ Document.sections text = .error error := by
  cases hsections : Document.sections text with
  | error found => simp [parse_of_sections_error hsections]
  | ok parts =>
    rw [parse_of_sections hsections]
    cases context.treeOfSections parts <;> simp [Except.mapError]

theorem parse_eq_invalidHeader_iff {text : String} {error : Header.Error} :
    context.parse text = .error (.invalidHeader error) ↔
      ∃ parts, Document.sections text = .ok parts ∧
        context.treeOfSections parts = .error error := by
  cases hsections : Document.sections text with
  | error found => simp [parse_of_sections_error hsections]
  | ok parts =>
    rw [parse_of_sections hsections]
    cases htree : context.treeOfSections parts <;> simp [Except.mapError, htree]

theorem parse_eq_ok_iff {text : String} {tree : Tree} :
    context.parse text = .ok tree ↔
      ∃ parts, Document.sections text = .ok parts ∧ context.treeOfSections parts = .ok tree := by
  cases hsections : Document.sections text with
  | error found => simp [parse_of_sections_error hsections]
  | ok parts =>
    rw [parse_of_sections hsections]
    cases htree : context.treeOfSections parts <;> simp [Except.mapError, htree]

theorem exists_parse_eq_ok_iff {text : String} :
    (∃ tree, context.parse text = .ok tree) ↔
      ∃ parts, Document.sections text = .ok parts ∧
        ∃ tree, context.treeOfSections parts = .ok tree := by
  simp only [parse_eq_ok_iff]
  constructor
  · rintro ⟨tree, parts, hsections, htree⟩
    exact ⟨parts, hsections, tree, htree⟩
  · rintro ⟨parts, hsections, tree, htree⟩
    exact ⟨tree, parts, hsections, htree⟩

/-- Sections before another one start on earlier lines. -/
theorem line_lt_of_sections {text : String} {before after : List Document.Section}
    {part : Document.Section} (hsections : Document.sections text = .ok (before ++ part :: after)) :
    (∀ earlier ∈ before, earlier.line < part.line) ∧ ∀ later ∈ after, part.line < later.line := by
  have horder := (Document.wellFormed_of_sections hsections).order
  obtain ⟨-, hpart, hbefore⟩ := List.pairwise_append.mp horder
  constructor
  · exact fun earlier hearlier => (hbefore earlier hearlier part (List.mem_cons_self ..)).line_lt
  · exact fun later hlater => ((List.pairwise_cons.mp hpart).1 later hlater).line_lt

/-- The first section whose header cannot be read is reported, with the
header as it is written. -/
theorem parse_eq_invalidHeader_iff_first {text : String} {error : Header.Error} :
    context.parse text = .error (.invalidHeader error) ↔
      ∃ (before after : List Document.Section) (part : Document.Section),
        Document.sections text = .ok (before ++ part :: after) ∧
        (∀ earlier ∈ before, earlier.line < part.line ∧
          ∃ header, Header.parse earlier.header = .ok header) ∧
        (∀ later ∈ after, part.line < later.line) ∧
        error.raw = part.header ∧ Header.ofChars part.header.toList = .error error.fault := by
  rw [parse_eq_invalidHeader_iff]
  constructor
  · rintro ⟨parts, hsections, hfailed⟩
    obtain ⟨before, after, part, rfl, hbefore, hpart⟩ := treeOfSections_eq_error_iff.mp hfailed
    obtain ⟨hearlier, hlater⟩ := line_lt_of_sections hsections
    exact ⟨before, after, part, hsections,
      fun earlier hmem => ⟨hearlier earlier hmem, hbefore earlier hmem⟩, hlater,
      Header.parse_eq_error_iff.mp hpart⟩
  · rintro ⟨before, after, part, hsections, hbefore, -, hpart⟩
    have hfirst : ∀ earlier ∈ before, ∃ header, Header.parse earlier.header = .ok header :=
      fun earlier hmem => (hbefore earlier hmem).2
    exact ⟨_, hsections, treeOfSections_eq_error_iff.mpr
      ⟨before, after, part, rfl, hfirst, Header.parse_eq_error_iff.mpr hpart⟩⟩

/-- How a document is read is decided by its text alone, up to the tree that
it gives. It is malformed exactly if one of its lines cannot be read, whatever
its headers are. Otherwise the first section whose header cannot be read is
reported, with the header as it is written, whether or not the sections before
it count. If there is none, the document has a tree. In particular no two
contexts fail differently. -/
theorem outcome_of_text (text : String) :
    (∀ (context : Context) (error : Document.Error),
      context.parse text = .error (.malformed error) ↔ Document.sections text = .error error) ∧
    (∀ (context : Context) (error : Header.Error),
      context.parse text = .error (.invalidHeader error) ↔
        ∃ (before after : List Document.Section) (part : Document.Section),
          Document.sections text = .ok (before ++ part :: after) ∧
          (∀ earlier ∈ before, earlier.line < part.line ∧
            ∃ header, Header.parse earlier.header = .ok header) ∧
          (∀ later ∈ after, part.line < later.line) ∧
          error.raw = part.header ∧ Header.ofChars part.header.toList = .error error.fault) ∧
    (∀ context : Context, (∃ tree, context.parse text = .ok tree) ↔
      ∃ parts, Document.sections text = .ok parts ∧
        ∀ part ∈ parts, ∃ header, Header.parse part.header = .ok header) ∧
    ∀ (first second : Context) (error : ParseError),
      first.parse text = .error error ↔ second.parse text = .error error := by
  refine ⟨fun _ _ => parse_eq_malformed_iff, fun _ _ => parse_eq_invalidHeader_iff_first, ?_, ?_⟩
  · intro context
    simp only [exists_parse_eq_ok_iff, exists_treeOfSections_eq_ok_iff]
  · intro first second error
    cases error with
    | malformed error => rw [parse_eq_malformed_iff, parse_eq_malformed_iff]
    | invalidHeader error =>
      rw [parse_eq_invalidHeader_iff_first, parse_eq_invalidHeader_iff_first]

/-- A line without a closing bracket counts before a header with a stray parenthesis. -/
example : Context.parse {} "[a)]\nx = 1\n[b\n" = .error (.malformed ⟨3, .unterminatedHeader⟩) := by
  decide +kernel

end Context

end LayeredIni
