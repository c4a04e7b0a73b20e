/-
# What reading and loading produce

Loading reads every source by itself and lays the trees over each other. Every
tree that a document or a list of sources can produce is well formed: headers
give names, texts are trimmed before they are written, dotted keys are cut at
every separator, and laying trees over each other keeps all of this.
-/

import LayeredIni.Loader
import LayeredIni.Proofs.Context.Placement
import LayeredIni.Proofs.Document.Section
import LayeredIni.Proofs.Header.Grammar
import LayeredIni.Proofs.Tree.Tidy
import Mathlib.Data.List.ReduceOption

namespace LayeredIni

open LayeredIni.Text LayeredIni.Fallible

theorem isName_trim {text : List Char} (h : trim text ≠ []) :
    IsName (String.ofList (trim text)) := by
  constructor
  · simpa using h
  · rw [trimmed_eq_self_iff, String.toList_ofList]
    exact isTrimmed_trim text

namespace Header

/-- The name that a header gives its section, if the section counts. -/
def name : Header → String
  | plain name => name
  | inherit child _ => child
  | conditional name _ => name

theorem eq_name_of_key?_eq_some {scope : Scope} {header : Header} {key : String}
    (h : header.key? scope = some key) : key = header.name := by
  cases header with
  | plain name => exact (Option.some.inj h).symm
  | inherit child parent => exact (Option.some.inj h).symm
  | conditional name condition =>
    by_cases hholds : condition.eval scope
    · exact (Option.some.inj ((if_pos hholds).symm.trans h)).symm
    · cases (if_neg hholds).symm.trans h

theorem isName_of_parse {raw : String} (hraw : trimmed raw ≠ "") {header : Header}
    (h : parse raw = .ok header) : IsName header.name := by
  have hchars : trim raw.toList ≠ [] := by
    intro hnil
    apply hraw
    rw [trimmed, hnil]
  have hread := ofChars_eq_iff.mp (parse_eq_ok_iff.mp h)
  generalize raw.toList = text at hchars hread
  cases hread with
  | conditional _ hname _ => exact isName_trim hname
  | inherit _ _ _ hchild _ _ => exact isName_trim hchild
  | plain => exact isName_trim hchars

end Header

theorem Document.Section.WellFormed.header_not_blank {part : Document.Section}
    (h : part.WellFormed) : trimmed part.header ≠ "" := by
  unfold Document.Section.WellFormed at h
  split at h
  · rw [h.1.trimmed_eq]
    exact h.1.ne_empty
  · exact h.1.not_blank

namespace Context

variable {context : Context}

theorem isTopLevel_declaredNode {tree : Tree} (h : tree.Assembled context.separator)
    (header : Header) (body : Document.Body) :
    (context.declaredNode tree header body).IsTopLevel context.separator := by
  have hstart : (header.startTree tree).Tidy context.separator := by
    cases header with
    | plain name => exact Tree.tidy_empty
    | inherit child parent => exact h.child parent
    | conditional name condition => exact Tree.tidy_empty
  cases body with
  | scalar value => exact trimmed_trimmed value
  | entries values => exact hstart.writeAll values

theorem assembled_placed {tree : Tree} (h : tree.Assembled context.separator) {header : Header}
    (hname : IsName header.name) (body : Document.Body) :
    (context.placed tree header body).Assembled context.separator := by
  cases hkey : header.key? context.scope with
  | none =>
    rw [placed_of_key?_eq_none hkey]
    exact h
  | some key =>
    rw [placed_of_key?_eq_some hkey]
    apply h.insert
    · rw [Header.eq_name_of_key?_eq_some hkey]
      exact hname
    · exact isTopLevel_declaredNode h header body

theorem assembled_run {parts : List Document.Section} (hparts : ∀ part ∈ parts, part.WellFormed)
    {tree after : Tree} (h : tree.Assembled context.separator)
    (hrun : parts.foldlM context.place tree = .ok after) :
    after.Assembled context.separator := by
  induction parts generalizing tree with
  | nil => exact foldlM_nil_eq_ok_iff.mp hrun ▸ h
  | cons part parts ih =>
    obtain ⟨hpart, hothers⟩ := List.forall_mem_cons.mp hparts
    obtain ⟨middle, hplace, hrest⟩ := foldlM_cons_eq_ok_iff.mp hrun
    obtain ⟨header, hparse, rfl⟩ := place_eq_ok_iff.mp hplace
    have hname := Header.isName_of_parse hpart.header_not_blank hparse
    exact ih hothers (assembled_placed h hname part.body) hrest

theorem assembled_of_parse {text : String} {tree : Tree} (h : context.parse text = .ok tree) :
    tree.Assembled context.separator := by
  unfold parse at h
  split at h
  · cases h
  · next parts hsections =>
    split at h
    · cases h
    · next result hrun =>
      cases h
      exact assembled_run (Document.wellFormed_of_sections hsections).sections
        Tree.assembled_empty hrun

end Context

/-- Every layer comes from a text. -/
theorem Source.exists_text_of_tree? {files : FileSystem} {context : Context} {source : Source}
    {tree : Tree} (h : source.tree? files context = .ok (some tree)) :
    ∃ text, context.parse text = .ok tree := by
  unfold tree? at h
  split at h
  · cases h
  · cases h
  · next text _ =>
    split at h
    · cases h
    · next hparse =>
      cases h
      exact ⟨text, hparse⟩

/-- Loading lays the trees of all sources that are there over each other, and
fails with the first source that fails. -/
theorem load_eq (files : FileSystem) (context : Context) (sources : List Source) :
    load files context sources =
      (sources.mapM (Source.tree? files context)).map fun layers =>
        Tree.overlayAll layers.reduceOption := by
  unfold load Tree.overlayAll
  -- Loading stops in the middle of a run, so the base has to be arbitrary.
  generalize Tree.empty = base
  induction sources generalizing base with
  | nil => rfl
  | cons source sources ih =>
    rw [List.foldlM_cons, List.mapM_cons, Source.overlayOnto]
    cases source.tree? files context with
    | error error => rfl
    | ok layer? =>
      have hrest (next : Tree) : sources.foldlM (Source.overlayOnto files context) next = _ :=
        ih next
      cases layer? with
      | none =>
        apply (hrest base).trans
        cases sources.mapM (Source.tree? files context) <;> rfl
      | some layer =>
        apply (hrest (base.overlay layer)).trans
        cases sources.mapM (Source.tree? files context) <;> rfl

theorem Tree.assembled_overlayAll {separator : String} {layers : List Tree}
    (h : ∀ layer ∈ layers, layer.Assembled separator) :
    (overlayAll layers).Assembled separator := by
  have hfold (base : Tree) (hbase : base.Assembled separator) :
      (layers.foldl overlay base).Assembled separator := by
    induction layers generalizing base with
    | nil => exact hbase
    | cons layer layers ih =>
      obtain ⟨hlayer, hlayers⟩ := List.forall_mem_cons.mp h
      exact ih hlayers _ (hbase.overlay hlayer)
  exact hfold empty assembled_empty

theorem assembled_of_load {files : FileSystem} {context : Context} {sources : List Source}
    {tree : Tree} (h : load files context sources = .ok tree) :
    tree.Assembled context.separator := by
  rw [load_eq] at h
  cases hlayers : sources.mapM (Source.tree? files context) with
  | error error =>
    rw [hlayers] at h
    cases h
  | ok layers =>
    rw [hlayers] at h
    cases h
    apply Tree.assembled_overlayAll
    intro layer hlayer
    have hsome : some layer ∈ layers := List.reduceOption_mem_iff.mp hlayer
    obtain ⟨source, -, hsource⟩ := exists_of_mem_mapM hlayers hsome
    obtain ⟨text, hparse⟩ := Source.exists_text_of_tree? hsource
    exact Context.assembled_of_parse hparse

/-- Every tree that is produced is well formed, whether it is read from a
document or loaded from any list of sources. -/
theorem wellFormed_produced (context : Context) :
    (∀ (text : String) (tree : Tree), context.parse text = .ok tree →
      tree.WellFormed context.separator) ∧
    ∀ (files : FileSystem) (sources : List Source) (tree : Tree),
      load files context sources = .ok tree → tree.WellFormed context.separator :=
  ⟨fun _ _ hparse => (Context.assembled_of_parse hparse).wellFormed,
    fun _ _ _ hload => (assembled_of_load hload).wellFormed⟩

/-- A separator that overlaps itself cuts `baaa` at its first place, so that the
rest of the key does not hold it, in a document and in the sources it is one of. -/
theorem wellFormed_produced_overlapping :
    ∃ tree loaded : Tree,
      Context.parse { separator := "aa" } "[s]\nbaaa = \" 1 \"\n" = .ok tree ∧
        tree.at? ["s", "b", "a"] = some (.scalar "1") ∧ tree.WellFormed "aa" ∧
      load (fun _ => .missing) { separator := "aa" }
          [.inline "base" "[s]\nbaaa = \" 1 \"\n", .file "absent" false,
            .inline "more" "[s]\nbaac = 2\n[t]\n"] = .ok loaded ∧
        loaded.at? ["s", "b", "c"] = some (.scalar "2") ∧ loaded.WellFormed "aa" := by
  have hparse : Context.parse { separator := "aa" } "[s]\nbaaa = \" 1 \"\n" =
      .ok ⟨.branch "s" (.branch "b" (.scalar "a" "1" .nil) .nil) .nil, by decide⟩ := by
    decide +kernel
  have hload : load (fun _ => .missing) { separator := "aa" }
      [.inline "base" "[s]\nbaaa = \" 1 \"\n", .file "absent" false,
        .inline "more" "[s]\nbaac = 2\n[t]\n"] =
      .ok ⟨.branch "s" (.branch "b" (.scalar "a" "1" (.scalar "c" "2" .nil)) .nil)
        (.branch "t" .nil .nil), by decide⟩ := by
    decide +kernel
  obtain ⟨hdocument, hsources⟩ := wellFormed_produced { separator := "aa" }
  exact ⟨_, _, hparse, by decide, hdocument _ _ hparse, hload, by decide, hsources _ _ _ hload⟩

end LayeredIni
