/-
# How loading ends

What a source comes to is settled by the file system and the source alone: it
gives a text, it is an optional file that is not there, or it cannot be read. A
text that cannot be parsed makes its source fail too. Sources have no part in
what the others come to, so the first one that fails decides how loading fails,
whatever stands around it. If none fails, the trees of their texts are laid over
each other, each parsed by itself.
-/

import LayeredIni.Proofs.Loader
import LayeredIni.Proofs.Tree.Algebra

namespace LayeredIni

open LayeredIni.Fallible

namespace Source

variable {files : FileSystem} {context : Context} {source : Source}

/-- The text that a source gives. -/
inductive Gives (files : FileSystem) : Source → String → Prop
  /-- An inline source gives the text it is made of. -/
  | inline (name text : String) : Gives files (.inline name text) text
  /-- A file that is there and is in UTF-8 gives the text it holds. -/
  | file {path text : String} {contents : ByteArray} (required : Bool)
      (hfile : files path = .file contents) (htext : String.fromUTF8? contents = some text) :
      Gives files (.file path required) text

/-- Whether a source is an optional file that is not there. -/
def isAbsent (files : FileSystem) : Source → Bool
  | .inline _ _ => false
  | .file path required =>
    match files path with
    | .missing => !required
    | _ => false

/-- How a source cannot be read. Only for a file that is not there does it matter
whether the file is required. -/
inductive Unread (files : FileSystem) : Source → LoadError → Prop
  | missing {path : String} (hfile : files path = .missing) :
      Unread files (.file path true) (.missingFile path)
  | directory {path : String} (required : Bool) (hfile : files path = .directory) :
      Unread files (.file path required) (.unreadableFile path .directory)
  | throughFile {path : String} (required : Bool) (hfile : files path = .throughFile) :
      Unread files (.file path required) (.unreadableFile path .throughFile)
  | notUtf8 {path : String} {contents : ByteArray} (required : Bool)
      (hfile : files path = .file contents) (htext : String.fromUTF8? contents = none) :
      Unread files (.file path required) (.unreadableFile path .notUtf8)

/-- How a source fails in a context: it cannot be read, or it gives a text that
cannot be parsed. -/
inductive Fails (files : FileSystem) (context : Context) (source : Source) : LoadError → Prop
  | unread {error : LoadError} (hread : source.Unread files error) :
      Fails files context source error
  | unparsed {text : String} {error : ParseError} (htext : source.Gives files text)
      (hparse : context.parse text = .error error) :
      Fails files context source (.invalidSource source.name error)

/-- The tree of the text that a source gives, parsed by itself. -/
def HasTree (files : FileSystem) (context : Context) (source : Source) (tree : Tree) : Prop :=
  ∃ text, source.Gives files text ∧ context.parse text = .ok tree

theorem Gives.read_eq {text : String} (h : source.Gives files text) :
    source.read files = .ok (some text) := by
  cases h with
  | inline name => rfl
  | file required hfile htext => simp only [read, hfile, htext]

theorem read_eq_of_isAbsent (h : source.isAbsent files = true) : source.read files = .ok none := by
  cases source with
  | inline name text => cases h
  | file path required =>
    cases hfile : files path with
    | missing =>
      have hoptional : required = false := by simpa [isAbsent, hfile] using h
      simp [read, hfile, hoptional]
    | directory => simp [isAbsent, hfile] at h
    | throughFile => simp [isAbsent, hfile] at h
    | file contents => simp [isAbsent, hfile] at h

theorem Unread.read_eq {error : LoadError} (h : source.Unread files error) :
    source.read files = .error error := by
  cases h with
  | missing hfile => simp only [read, hfile, if_true]
  | directory required hfile => simp only [read, hfile]
  | throughFile required hfile => simp only [read, hfile]
  | notUtf8 required hfile htext => simp only [read, hfile, htext]

theorem gives_or_isAbsent_or_unread (files : FileSystem) (source : Source) :
    (∃ text, source.Gives files text) ∨ source.isAbsent files = true ∨
      ∃ error, source.Unread files error := by
  cases source with
  | inline name text => exact .inl ⟨text, .inline name text⟩
  | file path required =>
    cases hfile : files path with
    | missing =>
      cases required with
      | true => exact .inr (.inr ⟨_, .missing hfile⟩)
      | false => exact .inr (.inl (by simp [isAbsent, hfile]))
    | directory => exact .inr (.inr ⟨_, .directory required hfile⟩)
    | throughFile => exact .inr (.inr ⟨_, .throughFile required hfile⟩)
    | file contents =>
      cases htext : String.fromUTF8? contents with
      | none => exact .inr (.inr ⟨_, .notUtf8 required hfile htext⟩)
      | some text => exact .inl ⟨text, .file required hfile htext⟩

theorem Gives.tree?_eq {text : String} (h : source.Gives files text) :
    source.tree? files context =
      ((context.parse text).mapError (.invalidSource source.name)).map some := by
  simp only [tree?, h.read_eq]
  cases context.parse text <;> rfl

theorem tree?_eq_of_isAbsent (h : source.isAbsent files = true) :
    source.tree? files context = .ok none := by
  rw [tree?, read_eq_of_isAbsent h]

theorem Fails.tree?_eq {error : LoadError} (h : source.Fails files context error) :
    source.tree? files context = .error error := by
  cases h with
  | unread hread => rw [tree?, hread.read_eq]
  | unparsed htext hparse =>
    rw [htext.tree?_eq, hparse]
    rfl

theorem HasTree.tree?_eq {tree : Tree} (h : source.HasTree files context tree) :
    source.tree? files context = .ok (some tree) := by
  obtain ⟨text, htext, hparse⟩ := h
  rw [htext.tree?_eq, hparse]
  rfl

theorem fails_or_isAbsent_or_hasTree (files : FileSystem) (context : Context) (source : Source) :
    (∃ error, source.Fails files context error) ∨ source.isAbsent files = true ∨
      ∃ tree, source.HasTree files context tree := by
  rcases source.gives_or_isAbsent_or_unread files with ⟨text, htext⟩ | habsent | ⟨error, hread⟩
  · cases hparse : context.parse text with
    | error error => exact .inl ⟨_, .unparsed htext hparse⟩
    | ok tree => exact .inr (.inr ⟨tree, text, htext, hparse⟩)
  · exact .inr (.inl habsent)
  · exact .inl ⟨error, .unread hread⟩

theorem tree?_spec (files : FileSystem) (context : Context) (source : Source) :
    match source.tree? files context with
    | .error error => source.Fails files context error
    | .ok none => source.isAbsent files = true
    | .ok (some tree) => source.HasTree files context tree := by
  rcases source.fails_or_isAbsent_or_hasTree files context with
    ⟨error, hfails⟩ | habsent | ⟨tree, htree⟩
  · rw [hfails.tree?_eq]
    exact hfails
  · rw [tree?_eq_of_isAbsent habsent]
    exact habsent
  · rw [htree.tree?_eq]
    exact htree

theorem tree?_eq_error_iff {error : LoadError} :
    source.tree? files context = .error error ↔ source.Fails files context error := by
  refine ⟨fun h => ?_, Fails.tree?_eq⟩
  have hspec := source.tree?_spec files context
  rwa [h] at hspec

theorem exists_tree?_eq_ok_iff :
    (∃ layer?, source.tree? files context = .ok layer?) ↔
      ∀ error, ¬ source.Fails files context error := by
  simp only [← tree?_eq_error_iff]
  cases source.tree? files context <;> simp

end Source

/-- The sources without the optional files that are not there. -/
def presentSources (files : FileSystem) (sources : List Source) : List Source :=
  sources.filter fun source => !source.isAbsent files

variable {files : FileSystem} {context : Context}

theorem load_eq_error_iff {sources : List Source} {error : LoadError} :
    load files context sources = .error error ↔
      ∃ before source after, sources = before ++ source :: after ∧
        (∀ earlier ∈ before, ∀ failure, ¬ earlier.Fails files context failure) ∧
        source.Fails files context error := by
  simp only [load_eq, map_eq_error_iff, mapM_eq_error_iff, Source.exists_tree?_eq_ok_iff,
    Source.tree?_eq_error_iff]

/-- The trees that are read are those of the sources that are there, in order. -/
theorem forall₂_hasTree {sources : List Source} {layers : List (Option Tree)}
    (h : List.Forall₂ (fun source layer? => source.tree? files context = .ok layer?)
      sources layers) :
    List.Forall₂ (Source.HasTree files context) (presentSources files sources)
      layers.reduceOption := by
  unfold presentSources
  induction h with
  | nil => exact .nil
  | @cons source layer? sources layers hsource _ ih =>
    have hspec := source.tree?_spec files context
    rw [hsource] at hspec
    cases layer? with
    | none =>
      have habsent : source.isAbsent files = true := hspec
      rw [List.filter_cons_of_neg (by simp [habsent])]
      exact ih
    | some tree =>
      have hpresent : ¬ source.isAbsent files = true := by
        intro habsent
        rw [Source.tree?_eq_of_isAbsent habsent] at hsource
        cases hsource
      rw [List.filter_cons_of_pos (by simp [hpresent])]
      exact .cons hspec ih

/-- If no source fails, the trees of those that are there are laid over each
other. -/
theorem exists_load_eq_ok {sources : List Source}
    (h : ∀ source ∈ sources, ∀ failure, ¬ source.Fails files context failure) :
    ∃ layers, List.Forall₂ (Source.HasTree files context) (presentSources files sources) layers ∧
      load files context sources = .ok (Tree.overlayAll layers) := by
  have hreads : ∀ source ∈ sources, ∃ layer?, source.tree? files context = .ok layer? :=
    fun source hsource => Source.exists_tree?_eq_ok_iff.mpr (h source hsource)
  obtain ⟨layers, hlayers⟩ := exists_mapM_eq_ok_iff.mpr hreads
  refine ⟨layers.reduceOption, forall₂_hasTree (mapM_eq_ok_iff.mp hlayers), ?_⟩
  rw [load_eq, hlayers]
  rfl

/-- Optional files that are not there make no difference. -/
theorem load_presentSources (files : FileSystem) (context : Context) (sources : List Source) :
    load files context (presentSources files sources) = load files context sources := by
  apply foldlM_filter
  intro source _ habsent base
  rw [Bool.not_eq_false'] at habsent
  rw [Source.overlayOnto, Source.tree?_eq_of_isAbsent habsent]

/-- A single inline source has the tree of its text, or fails as its text does. -/
theorem load_inline (files : FileSystem) (context : Context) (name text : String) :
    load files context [.inline name text] =
      (context.parse text).mapError (.invalidSource name) := by
  rw [load_eq, List.mapM_cons, (Source.Gives.inline name text).tree?_eq]
  cases context.parse text with
  | error error => rfl
  | ok tree => exact congrArg Except.ok (Tree.empty_overlay tree)

/-- Loading goes through its sources, and the first failure decides. Loading
fails exactly if some source does, with the failure of the first such source. If
none does, the trees of the sources that are there, each parsed by itself, are
laid over each other in their order, so that one inline source has exactly the
tree of its text. Optional files that are not there can be added and removed
anywhere. -/
theorem load_outcome (files : FileSystem) (context : Context) :
    (∀ (sources : List Source) (error : LoadError),
      load files context sources = .error error ↔
        ∃ before source after, sources = before ++ source :: after ∧
          (∀ earlier ∈ before, ∀ failure, ¬ earlier.Fails files context failure) ∧
          source.Fails files context error) ∧
    (∀ sources : List Source,
      (∀ source ∈ sources, ∀ failure, ¬ source.Fails files context failure) →
      ∃ layers, List.Forall₂ (Source.HasTree files context) (presentSources files sources) layers ∧
        load files context sources = .ok (Tree.overlayAll layers)) ∧
    (∀ name text, load files context [.inline name text] =
      (context.parse text).mapError (.invalidSource name)) ∧
    ∀ sources others : List Source, presentSources files sources = presentSources files others →
      load files context sources = load files context others := by
  refine ⟨fun _ _ => load_eq_error_iff, fun _ => exists_load_eq_ok, load_inline files context, ?_⟩
  intro sources others hpresent
  rw [← load_presentSources, hpresent, load_presentSources]

/-- A section does not inherit from one of an earlier source, and of two files that
cannot be read the first one is reported, although it is optional. -/
theorem load_outcome_of_sources :
    let files : FileSystem := fun path =>
      if path = "latin.ini" then .file ⟨#[0xe9]⟩
      else if path = "conf" then .directory else .missing
    let base : Source := .inline "base" "[s]\nx = 1\n"
    let site : Source := .inline "site" "[t : s]\ny = 2\n[s]\nx = 3\n"
    let sources : List Source := [base, .file "absent.ini" false, site]
    (∀ source ∈ sources, ∀ failure, ¬ source.Fails files {} failure) ∧
      (∃ layers, List.Forall₂ (Source.HasTree files {}) [base, site] layers ∧
        load files {} sources = .ok (Tree.overlayAll layers)) ∧
      load files {} sources = .ok ⟨.branch "s" (.scalar "x" "3" .nil)
        (.branch "t" (.scalar "y" "2" .nil) .nil), by decide⟩ ∧
      load files {} sources = load files {} [base, site] ∧
      load files {} (sources ++ [.file "latin.ini" false, .file "conf" true]) =
        .error (.unreadableFile "latin.ini" .notUtf8) := by
  intro files base site sources
  obtain ⟨hfailed, hloaded, -, hpresent⟩ := load_outcome files {}
  have hfine : ∀ source ∈ sources, ∀ failure, ¬ source.Fails files {} failure := by
    have hbase : base.tree? files {} = .ok (some ⟨.branch "s" (.scalar "x" "1" .nil) .nil,
        by decide⟩) := by
      decide +kernel
    have habsent : (Source.file "absent.ini" false).tree? files {} = .ok none := by decide +kernel
    have hsite : site.tree? files {} = .ok (some ⟨.branch "t" (.scalar "y" "2" .nil)
        (.branch "s" (.scalar "x" "3" .nil) .nil), by decide⟩) := by
      decide +kernel
    simp only [← Source.exists_tree?_eq_ok_iff]
    simp [sources, hbase, habsent, hsite]
  have hlatin : (Source.file "latin.ini" false).Fails files {}
      (.unreadableFile "latin.ini" .notUtf8) :=
    .unread (.notUtf8 false rfl (by decide))
  exact ⟨hfine, hloaded sources hfine, by decide +kernel, hpresent sources [base, site] rfl,
    (hfailed _ _).mpr ⟨sources, _, [.file "conf" true], rfl, hfine, hlatin⟩⟩

end LayeredIni
